import Breaker.Binary64
import Breaker.Clock
import Breaker.Phase

/-!
# Policies

A policy holds the thresholds and timings of one breaker.
-/

namespace Breaker

/-- One half. -/
def Binary64.half : Binary64 := .ofRatio 1 2

/-- The thresholds and timings of one breaker.

* `probeLimit`: how many probes a half-open period admits, and how many
  successes in a row close the circuit again.
* `closedWindow`: how long a closed period counts before it starts afresh.
* `openDuration`: how long an open circuit refuses calls.
* `threshold`: the failure rate that opens a closed circuit.
* `minRequests`: how many calls a period needs before it can open. -/
structure Policy where
  probeLimit : Nat := 3
  closedWindow : Span := 60 * Clock.second
  openDuration : Span := 60 * Clock.second
  threshold : Binary64 := .half
  minRequests : Nat := 10
  deriving DecidableEq, Repr

namespace Policy

/-- How long a period of the given phase lasts; a half-open one has no end of
its own. -/
def period (policy : Policy) : Phase → Option Span
  | .closed => some policy.closedWindow
  | .opened => some policy.openDuration
  | .halfOpen => none

/-- A threshold is usable in `(0, 1]`; `nan` is not. -/
def usableThreshold (t : Binary64) : Bool := Binary64.zero.lt t && t.le .one

end Policy

end Breaker
