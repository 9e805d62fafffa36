import Breaker.Binary64

/-!
# Statistics windows

A window counts the calls of one period of a circuit: those admitted, those
that ended well or badly, and how many of the last ones ended alike.  Counters
stop at `Window.cap`.
-/

namespace Breaker

/-- The counters of one period.  `requests` counts admitted calls, also those
that have not ended. -/
structure Window where
  requests : Nat := 0
  successes : Nat := 0
  failures : Nat := 0
  successRun : Nat := 0
  failureRun : Nat := 0
  deriving DecidableEq, Repr

namespace Window

/-- Where counters stop: the largest number of 32 bits. -/
def cap : Nat := 0xFFFFFFFF

/-- One more, up to the cap. -/
def bump (n : Nat) : Nat := min (n + 1) cap

/-- Counts an admitted call. -/
def arrive (w : Window) : Window := { w with requests := bump w.requests }

/-- Counts a call that ended well. -/
def succeed (w : Window) : Window :=
  { w with
    successes := bump w.successes
    successRun := bump w.successRun
    failureRun := 0 }

/-- Counts a call that ended badly. -/
def fail (w : Window) : Window :=
  { w with
    failures := bump w.failures
    failureRun := bump w.failureRun
    successRun := 0 }

/-- Counts the end of a call. -/
def record (w : Window) (success : Bool) : Window :=
  if success then w.succeed else w.fail

/-- The fraction of admitted calls that failed, zero when none was admitted. -/
def failureRate (w : Window) : Binary64 :=
  if w.requests = 0 then .zero else .ofRatio w.failures w.requests

/-- Counting a capped count stays the capped count. -/
theorem bump_min (n : Nat) : bump (min n cap) = min (n + 1) cap := by
  unfold bump
  omega

end Window

end Breaker
