import Breaker.Circuit
import Breaker.Courier

/-!
# A breaker and its clients

An engine is one breaker as its clients meet it: a circuit, the mailbox of its
transitions, and the methods that are under way.  Clients act by *moves*; the
library's own code between two moves is one step.  Client code runs at two
places inside a method: the operation that a call protects, and the listener
that a transition is handed to.  Both may move in turn, so the methods under
way form a stack of frames, the innermost first.

A call that is admitted gets a ticket.  Its operation runs in an `operating`
frame and ends by `finish` or `panic`; an operation that waits leaves the stack
by `suspend` and comes back by `resume`, or is given up by `abandon`.

`Engine.step` is `none` for a move that makes no sense where control stands,
and where a second panic would leave the library while one is unwinding.
-/

namespace Breaker

/-- An admitted call: its number and the generation it was admitted in. -/
structure Ticket where
  serial : Nat
  generation : Nat
  deriving DecidableEq, Repr

/-- What a query shows of a circuit. -/
structure View where
  phase : Phase
  generation : Nat
  window : Window
  deriving DecidableEq, Repr

/-- What clients do. -/
inductive Move where
  /-- Asks for the phase, the generation and the counters. -/
  | query
  /-- Forces the circuit closed. -/
  | reset
  /-- Asks for admission of a call. -/
  | call
  /-- Goes on with the operation of a suspended call. -/
  | resume (t : Ticket)
  /-- Gives up a suspended call. -/
  | abandon (t : Ticket)
  /-- The running operation waits. -/
  | suspend
  /-- The running operation ends. -/
  | finish (success : Bool)
  /-- The listener returns. -/
  | heard
  /-- The running operation or listener panics. -/
  | panic (text : String)
  deriving DecidableEq, Repr

/-- Where control stands after a move, or what the method returned. -/
inductive Reply where
  /-- The listener has been called. -/
  | listening (t : Transition)
  /-- The operation of an admitted call runs. -/
  | operating (t : Ticket)
  | suspended (t : Ticket)
  | view (v : View)
  | wasReset
  | refused (r : Refusal)
  | completed (success : Bool)
  | abandoned
  /-- A panic left the method. -/
  | panicked (text : String)
  deriving DecidableEq, Repr

/-- What a method does when its transitions have been handed over. -/
inductive Sequel where
  | answer (r : Reply)
  | operate (t : Ticket)
  | refuse (r : Refusal)
  /-- The panic of an operation goes on. -/
  | unwind (text : String)
  deriving DecidableEq, Repr

/-- A method under way that waits for client code. -/
inductive Frame where
  | listening (t : Transition) (sequel : Sequel)
  | operating (t : Ticket)
  deriving DecidableEq, Repr

/-- What a bystander can note of a breaker.  Together the entries tell the
whole history of its calls. -/
inductive Entry where
  /-- The circuit changed its phase, and the change was put into the mailbox. -/
  | moved (t : Transition)
  /-- A transition was handed to the listener. -/
  | told (t : Transition)
  /-- A call was counted as admitted. -/
  | admitted (t : Ticket)
  /-- The operation of an admitted call was invoked. -/
  | began (t : Ticket)
  | refused (r : Refusal)
  | reset
  /-- The outcome of a call of the current generation was counted. -/
  | counted (t : Ticket) (success : Bool)
  /-- The outcome of a call of an earlier generation was not counted. -/
  | stale (t : Ticket) (current : Nat) (success : Bool)
  /-- A call was given up before it ended, or a panic ended it. -/
  | cutShort (unwinding : Bool)
  /-- The breaker was built for a panel. -/
  | created
  /-- A simulated workload begins. -/
  | simulating (calls concurrency : Nat) (failureRate : Binary64)
  deriving DecidableEq, Repr

/-- Who is told of transitions: the built-in log and metrics, or a listener of
a client.  Listeners have numbers, by which one can be told from another;
nothing else is asked of the number. -/
inductive Audience where
  | telemetry
  | client (listener : Nat := 0)
  deriving DecidableEq, Repr

/-- One breaker with the methods that are under way. -/
structure Engine where
  name : String
  policy : Policy
  audience : Audience := .telemetry
  circuit : Circuit
  mailbox : Mailbox := {}
  frames : List Frame := []
  suspended : List Ticket := []
  nextSerial : Nat := 0
  deriving DecidableEq, Repr

namespace Engine

/-- What a step makes of an engine. -/
structure Response where
  engine : Engine
  reply : Reply
  journal : List Entry := []
  deriving DecidableEq, Repr

/-- A new breaker, if the clock can hold the end of its first period. -/
def new? (name : String) (policy : Policy) (audience : Audience) (now : Instant) :
    Option Engine :=
  (Circuit.fresh? policy now).map fun circuit => { name, policy, audience, circuit }

/-- Is a panic unwinding through a method that waits for the listener? -/
def isUnwinding (e : Engine) : Bool :=
  e.frames.any fun
    | .listening _ (.unwind _) => true
    | _ => false

/-- Ends the delivery of a method. -/
def conclude (e : Engine) (sequel : Sequel) (journal : List Entry) : Response :=
  match sequel with
  | .answer reply => { engine := e, reply, journal }
  | .operate t =>
    { engine := { e with frames := .operating t :: e.frames }
      reply := .operating t
      journal := journal ++ [.began t] }
  | .refuse r => { engine := e, reply := .refused r, journal := journal ++ [.refused r] }
  | .unwind text => { engine := e, reply := .panicked text, journal }

/-- Goes on where the courier has got to: into the listener, or past the
delivery. -/
def follow (e : Engine) (sequel : Sequel) (journal : List Entry) :
    Courier × Mailbox → Response
  | (.telling t, mailbox) =>
    { engine := { e with mailbox, frames := .listening t sequel :: e.frames }
      reply := .listening t
      journal := journal ++ [.told t] }
  | (_, mailbox) => { e with mailbox }.conclude sequel journal

/-- Delivers what waits in the mailbox, then goes on with `sequel`. -/
def deliver (e : Engine) (sequel : Sequel) (journal : List Entry) : Response :=
  e.follow sequel journal (Courier.dispatch e.mailbox)

/-- Takes over the circuit after a complete step and puts its change into the
mailbox. -/
def accept (e : Engine) (circuit : Circuit) (change : Option Transition) : Engine :=
  { e with circuit, mailbox := e.mailbox.push change }

/-- The entry for a change. -/
def noted (change : Option Transition) : List Entry := change.toList.map .moved

/-- The clock cannot hold a deadline: the method panics where it stands. -/
def overflow (e : Engine) (circuit : Circuit) (journal : List Entry) : Response :=
  { engine := { e with circuit }, reply := .panicked Clock.overflowText, journal }

/-- Shows the circuit after what is due has been applied. -/
def query (e : Engine) (now : Instant) : Response :=
  match e.circuit.evaluate e.policy now with
  | .overflow circuit => e.overflow circuit []
  | .done circuit change =>
    let view := { phase := circuit.phase, generation := circuit.generation, window := circuit.window }
    (e.accept circuit change).deliver (.answer (.view view)) (noted change)

/-- Forces the circuit closed. -/
def reset (e : Engine) (now : Instant) : Response :=
  match e.circuit.reset e.policy now with
  | .overflow circuit => e.overflow circuit []
  | .done circuit change =>
    (e.accept circuit change).deliver (.answer .wasReset) (noted change ++ [.reset])

/-- Asks for admission; an admitted call gets the next ticket. -/
def call (e : Engine) (now : Instant) : Response :=
  match e.circuit.evaluate e.policy now with
  | .overflow circuit => e.overflow circuit []
  | .done circuit change =>
    let e := e.accept circuit change
    match circuit.allow e.policy with
    | .error r => e.deliver (.refuse r) (noted change)
    | .ok circuit =>
      let t : Ticket := { serial := e.nextSerial, generation := circuit.generation }
      { e with circuit, nextSerial := e.nextSerial + 1 }.deliver (.operate t)
        (noted change ++ [Entry.admitted t])

/-- A panic of the library while one is unwinding out of the same method
cannot be survived. -/
def overflowIn (e : Engine) (sequel : Sequel) (circuit : Circuit) (journal : List Entry) :
    Option Response :=
  match sequel with
  | .unwind _ => none
  | _ => some (e.overflow circuit journal)

/-- Records the end of a call: counted when its generation is still the
current one, noted as stale when it is not. -/
def report (e : Engine) (now : Instant) (t : Ticket) (success : Bool) (sequel : Sequel)
    (journal : List Entry) : Option Response :=
  match e.circuit.evaluate e.policy now with
  | .overflow circuit => e.overflowIn sequel circuit journal
  | .done circuit change =>
    let e := e.accept circuit change
    let journal := journal ++ noted change
    if t.generation ≠ circuit.generation then
      some (e.deliver sequel (journal ++ [.stale t circuit.generation success]))
    else
      let journal := journal ++ [.counted t success]
      match circuit.settle e.policy now success with
      | .overflow circuit => e.overflowIn sequel circuit journal
      | .done circuit change =>
        some ((e.accept circuit change).deliver sequel (journal ++ noted change))

/-- One move of a client at the instant `now`. -/
def step (e : Engine) (now : Instant) : Move → Option Response
  | .query => some (e.query now)
  | .reset => some (e.reset now)
  | .call => some (e.call now)
  | .resume t =>
    if t ∈ e.suspended then
      some
        { engine :=
            { e with suspended := e.suspended.erase t, frames := .operating t :: e.frames }
          reply := .operating t }
    else none
  | .abandon t =>
    if t ∈ e.suspended then
      { e with suspended := e.suspended.erase t }.report now t false
        (.answer .abandoned) [.cutShort e.isUnwinding]
    else none
  | .suspend =>
    match e.frames with
    | .operating t :: frames =>
      some
        { engine := { e with frames, suspended := t :: e.suspended }
          reply := .suspended t }
    | _ => none
  | .finish success =>
    match e.frames with
    | .operating t :: frames =>
      { e with frames }.report now t success (.answer (.completed success)) []
    | _ => none
  | .heard =>
    match e.frames with
    | .listening _ sequel :: frames =>
      some ({ e with frames }.follow sequel [] (Courier.proceed e.mailbox))
    | _ => none
  | .panic text =>
    match e.frames with
    | .operating t :: frames =>
      { e with frames }.report now t false (.unwind text) [.cutShort true]
    | .listening _ _ :: frames =>
      if e.isUnwinding then none
      else
        some
          { engine := { e with frames, mailbox := e.mailbox.release }
            reply := .panicked text }
    | [] => none

end Engine

end Breaker
