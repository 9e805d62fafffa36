import Breaker.Report
import Breaker.Scenario.Step

/-!
# The world of a script

A world holds a clock, a panel of breakers, and the calls that scripts have
given names to.  `World.perform` takes a move on a breaker to its end, with the
listener called as often as the move demands; what a listener does is the
world's `Ear`.
-/

namespace Breaker.Scenario

/-- A call with a name: not yet polled, or with an operation that waits. -/
inductive Future where
  | created (breaker : String)
  | waiting (breaker : String) (t : Ticket)

/-- An entry of the journal of the breaker `name`. -/
structure Note where
  name : String
  audience : Audience
  entry : Entry

/-- All that scripts act on.  The newest of the notes comes first. -/
structure World where
  clock : Instant := 0
  panel : Panel := {}
  futures : List (String × Future) := []
  reactions : List Reaction := []
  events : List Event := []
  notes : List Note := []

/-- What a listener does: it may change the world, and may panic. -/
abbrev Ear := String → Transition → World → World × Option String

namespace World

/-- The breaker of that name. -/
def engine? (w : World) (name : String) : Option Engine := w.panel.find? name

/-- Adds entries to the journal. -/
def note (w : World) (name : String) (audience : Audience) (entries : List Entry) : World :=
  { w with notes := (entries.map fun entry => { name, audience, entry }).reverse ++ w.notes }

/-- One move.  Scripts make no move that a breaker refuses, save a panic of the
library out of a method that is unwinding already. -/
def send (w : World) (name : String) (move : Move) : World × Reply :=
  match w.panel.step w.clock name move with
  | some (panel, response) =>
    (note { w with panel } name response.engine.audience response.journal, response.reply)
  | none => (w, .panicked Clock.overflowText)

/-- How many times a listener can be called before a move on the breaker is
over: what waits already, and what the scripts still to run may add. -/
def patience (w : World) (name : String) : Nat :=
  let waiting := (w.engine? name).elim 0 fun e => e.mailbox.pending.length
  let scripted := w.reactions.foldl (fun n r => n + r.left * weightAll r.script) 0
  waiting + scripted + 1

/-- Lets the listener hear as long as it is called. -/
def attend (ear : Ear) (name : String) : Nat → World × Reply → World × Reply
  | fuel + 1, (w, .listening t) =>
    match ear name t w with
    | (w, none) => attend ear name fuel (w.send name .heard)
    | (w, some text) => attend ear name fuel (w.send name (.panic text))
  | _, r => r

/-- A move and all deliveries that it leads to. -/
def perform (ear : Ear) (w : World) (name : String) (move : Move) : World × Reply :=
  let (w, reply) := w.send name move
  attend ear name (w.patience name) (w, reply)

/-- Is a panic unwinding through a method of the breaker? -/
def isUnwinding (w : World) (name : String) : Bool :=
  (w.engine? name).any Engine.isUnwinding

/-- Takes the call of that name away. -/
def takeFuture (w : World) (id : String) : World × Option Future :=
  ({ w with futures := w.futures.filter fun f => f.1 != id }, w.futures.lookup id)

/-- Gives a call a name. -/
def putFuture (w : World) (id : String) (f : Future) : World :=
  { w with futures := (id, f) :: w.futures }

/-- The world as the host of a simulation on one of its breakers. -/
def host (ear : Ear) (name : String) : Simulation.Host World :=
  { now := World.clock
    sleepUntil := fun wake w => { w with clock := max w.clock wake }
    send := fun move w => w.perform ear name move }

/-- A breaker for `name`, built when there is none. -/
def obtain (w : World) (name : String) : World × Except Panel.Failure Unit :=
  match w.panel.get w.clock name with
  | .error failure => (w, .error failure)
  | .ok (panel, isNew) =>
    let entries := if isNew then [.created] else []
    (note { w with panel } name panel.audience entries, .ok ())

/-- Takes what was heard and noted, and leaves the world without it. -/
def collect {α : Type} (w : World) (result : α) : World × Record α :=
  let notes := w.notes.reverse
  ({ w with events := [], notes := [] },
    { result
      events := w.events
      logs := notes.flatMap fun n => Telemetry.logs n.name n.audience n.entry
      metrics := notes.flatMap fun n => Telemetry.metrics n.name n.audience n.entry })

end World

end Breaker.Scenario
