import Breaker.Clock
import Breaker.Phase
import Breaker.Policy
import Breaker.Window

/-!
# Circuits

A circuit is what a breaker remembers between calls: its phase, the number of
the current period (the *generation*), the counters of that period, and when
the period is over.  The operations take the current instant; none reads a
clock.  Phase and counters change only here, by

* `Circuit.evaluate`: a closed window that is over starts afresh, an open
  period that is over becomes half open;
* `Circuit.allow`: lets one call pass, or refuses it;
* `Circuit.settle`: records how a call of the current period ended;
* `Circuit.reset`: a fresh closed period, whatever went before.

Every new period asks for its deadline last.  When the clock cannot hold the
deadline, the operation stops there, and `Outcome.overflow` shows the circuit
as it was left: the new period with the old deadline.
-/

namespace Breaker

/-- The memory of a breaker.  The generation is a counter of 64 bits.  Its bound
of 2^64 is left out: each period takes a move that starts it, and no run makes
that many. -/
structure Circuit where
  phase : Phase
  generation : Nat
  window : Window
  expiry : Option Instant
  deriving DecidableEq, Repr

/-- Why a call is not let through. -/
inductive Refusal where
  | opened
  | tooManyRequests
  deriving DecidableEq, Repr

namespace Circuit

/-- What an operation makes of a circuit: a complete step with the change of
phase that it made, or a step cut short by a deadline past the clock's end. -/
inductive Outcome where
  | done (circuit : Circuit) (change : Option Transition)
  | overflow (circuit : Circuit)
  deriving DecidableEq, Repr

/-- A closed circuit with an empty window, if the clock can hold its end. -/
def fresh? (policy : Policy) (now : Instant) : Option Circuit :=
  (Clock.deadline? now policy.closedWindow).map fun expiry =>
    { phase := .closed, generation := 0, window := {}, expiry := some expiry }

/-- Starts the next period, in the given phase. -/
def startPeriod (policy : Policy) (now : Instant) (phase : Phase)
    (change : Option Transition) (c : Circuit) : Outcome :=
  let next := { c with phase, generation := c.generation + 1, window := {} }
  match policy.period phase with
  | none => .done { next with expiry := none } change
  | some span =>
    match Clock.deadline? now span with
    | some expiry => .done { next with expiry := some expiry } change
    | none => .overflow next

/-- Starts a period in another phase, which is a change to announce. -/
def moveTo (policy : Policy) (now : Instant) (phase : Phase) (c : Circuit) : Outcome :=
  if c.phase = phase then .done c none
  else c.startPeriod policy now phase (some { source := c.phase, target := phase })

/-- Is the period over?  One without a deadline counts as over when the
circuit is open and never when it is closed. -/
def isDue (now : Instant) (c : Circuit) : Bool :=
  match c.phase, c.expiry with
  | .closed, some expiry => expiry ≤ now
  | .closed, none => false
  | .opened, some expiry => expiry ≤ now
  | .opened, none => true
  | .halfOpen, _ => false

/-- Applies what the passing of time has made due. -/
def evaluate (policy : Policy) (now : Instant) (c : Circuit) : Outcome :=
  if c.isDue now then
    match c.phase with
    | .closed => c.startPeriod policy now .closed none
    | _ => c.moveTo policy now .halfOpen
  else .done c none

/-- Lets one call pass and counts it, or says why not. -/
def allow (policy : Policy) (c : Circuit) : Except Refusal Circuit :=
  match c.phase with
  | .opened => .error .opened
  | .halfOpen =>
    if policy.probeLimit ≤ c.window.requests then .error .tooManyRequests
    else .ok { c with window := c.window.arrive }
  | .closed => .ok { c with window := c.window.arrive }

/-- Has the window enough calls, and enough failures among them, to open the
circuit? -/
def shouldTrip (policy : Policy) (w : Window) : Bool :=
  policy.minRequests ≤ w.requests && policy.threshold.le w.failureRate

/-- Records a success: enough of them in a row close a half-open circuit. -/
def succeed (policy : Policy) (now : Instant) (c : Circuit) : Outcome :=
  let c := { c with window := c.window.succeed }
  if c.phase = .halfOpen ∧ policy.probeLimit ≤ c.window.successRun then
    c.moveTo policy now .closed
  else .done c none

/-- Records a failure: it opens a half-open circuit at once, and a closed one
when the window says so. -/
def fail (policy : Policy) (now : Instant) (c : Circuit) : Outcome :=
  let c := { c with window := c.window.fail }
  match c.phase with
  | .halfOpen => c.moveTo policy now .opened
  | .closed => if shouldTrip policy c.window then c.moveTo policy now .opened else .done c none
  | .opened => .done c none

/-- Records how a call of the current period ended. -/
def settle (policy : Policy) (now : Instant) (success : Bool) (c : Circuit) : Outcome :=
  if success then c.succeed policy now else c.fail policy now

/-- A fresh closed period, announced unless the circuit was closed already. -/
def reset (policy : Policy) (now : Instant) (c : Circuit) : Outcome :=
  let change : Option Transition :=
    if c.phase = .closed then none else some { source := c.phase, target := .closed }
  c.startPeriod policy now .closed change

end Circuit

end Breaker
