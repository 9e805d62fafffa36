import Breaker.Panel
import Breaker.Simulation
import Breaker.Telemetry

/-!
# Scripts

A script is a list of steps that a client takes on a breaker.  The operation
of a call may run a script of its own, and so may the listener when it is told
of a transition.  Every step has a result, and a step of the outermost script
also leaves a record of what was heard and noted meanwhile.
-/

namespace Breaker.Scenario

/-- How an operation ends. -/
inductive Ending where
  | ok
  | err
  | panic
  deriving DecidableEq, Repr

/-- One step of a client. -/
inductive Step where
  /-- A call whose operation ends at once. -/
  | call (ending : Ending) (text : String)
  /-- A call whose operation runs a script first. -/
  | callDuring (ending : Ending) (text : String) (during : List Step)
  /-- The same call many times. -/
  | series (ending : Ending) (times : Nat)
  /-- A call that waits to be polled, under a name. -/
  | create (id : String)
  | poll (id : String)
  /-- `create`, then `poll`. -/
  | start (id : String)
  /-- The operation is told to end, then polled. -/
  | finish (id : String) (ending : Ending) (text : String)
  | drop (id : String)
  /-- Moves the clock on. -/
  | elapse (span : Span)
  | phase
  | counters
  | generation
  | snapshot
  | failureRate
  | reset
  | name
  | policy
  | technical
  | simulate (w : Workload)
  /-- A panic out of the operation or the listener that runs the script. -/
  | panic (text : String)
  deriving Inhabited

mutual

/-- How many transitions a step can make at most: a call makes three, one when
it is admitted and two when its end is recorded. -/
def Step.weight : Step → Nat
  | .callDuring _ _ during => 3 + weightAll during
  | .series _ times => 3 * times
  | .simulate w => 3 * w.calls + 1
  | _ => 3

/-- How many transitions a script can make at most. -/
def weightAll : List Step → Nat
  | [] => 0
  | step :: rest => step.weight + weightAll rest

end

/-- A script that runs when the listener hears of a move to `target`, at most
`left` more times. -/
structure Reaction where
  target : Phase
  left : Nat
  script : List Step

/-- How a call ended for its caller. -/
inductive CallEnd where
  | ok (text : String)
  | failed (text : String)
  | refused (r : Refusal)
  | panicked (text : String)
  deriving DecidableEq, Repr

/-- The word under which a tally counts an end.  A panic is not counted: it
leaves the series with its text. -/
def CallEnd.tallied : CallEnd → Except String String
  | .ok _ => .ok "ok"
  | .failed _ => .ok "operation"
  | .refused r => .ok r.label
  | .panicked text => .error text

/-- The result of a step. -/
inductive Result where
  /-- A call is over; `ran` tells whether its operation was invoked, `during`
  holds the results of the operation's script. -/
  | ended (name : String) (outcome : CallEnd) (ran : Bool) (during : Option (List Result))
  | pending
  | unknownId
  | created
  | dropped
  | elapsed
  | skipped
  | tally (ends : List (String × Nat))
  | phase (p : Phase)
  | counters (w : Window)
  | generation (n : Nat)
  | snapshot (name : String) (v : View)
  | failureRate (x : Binary64)
  | wasReset
  | name (s : String)
  | policy (p : Policy)
  | technical (s : String)
  | report (s : String)
  | panicked (text : String)

/-- A transition as a recording listener heard of it, with the results of the
steps that it took about it. -/
structure Event where
  name : String
  transition : Transition
  did : List Result

/-- What a step of the outermost script leaves. -/
structure Record (α : Type) where
  result : α
  events : List Event
  logs : List LogRecord
  metrics : List Sample

end Breaker.Scenario
