import Breaker.Scenario.Run

/-!
# Scripts on a panel

The steps that a client takes on a panel of breakers; a step on one of them
builds it first when there is none of its name.
-/

namespace Breaker.Scenario

/-- One step on a panel. -/
inductive PanelStep where
  | get (name : String)
  /-- Do both names give the same breaker? -/
  | same (a b : String)
  | size
  | isEmpty
  | settings
  | snapshots
  | resetAll
  | elapse (span : Span)
  /-- A step on the breaker of that name. -/
  | on (name : String) (step : Step)
  /-- Changes who is told by breakers still to be built, if anyone is given. -/
  | setAudience (audience : Option Audience)

/-- The result of a step on a panel. -/
inductive PanelResult where
  | got (name : String) (policy : Policy)
  | failure (f : Panel.Failure)
  | flag (b : Bool)
  | number (n : Nat)
  | settings (s : Settings)
  | snapshots (views : List (String × View))
  | wasReset
  | elapsed
  | audienceSet
  | step (r : Result)
  | panicked (text : String)

/-- Takes the same move on several breakers, and what each replies; a panic
ends it. -/
def performAll (move : Move) : List String → World → World × Except String (List (String × Reply))
  | [], w => (w, .ok [])
  | name :: rest, w =>
    match w.perform hear name move with
    | (w, .panicked text) => (w, .error text)
    | (w, reply) =>
      let (w, replies) := performAll move rest w
      (w, replies.map ((name, reply) :: ·))

/-- The view of a reply to a query. -/
def viewOf : String × Reply → Option (String × View)
  | (name, .view v) => some (name, v)
  | _ => none

/-- Do both names give the same breaker?  Both are asked for before either
answer is looked at, so a fault in the first name does not keep the second
breaker from being built; a panic does. -/
def compareNames (a b : String) (w : World) : World × PanelResult :=
  match w.obtain a with
  | (w, .error .overflow) => (w, .failure .overflow)
  | (w, first) =>
    match w.obtain b with
    | (w, .error .overflow) => (w, .failure .overflow)
    | (w, second) =>
      match first, second with
      | .error failure, _ => (w, .failure failure)
      | .ok (), .error failure => (w, .failure failure)
      | .ok (), .ok () => (w, .flag (a == b))

/-- One step on a panel. -/
def runPanelStep (step : PanelStep) (w : World) : World × PanelResult :=
  match step with
  | .get name =>
    match w.obtain name with
    | (w, .error failure) => (w, .failure failure)
    | (w, .ok ()) =>
      (w, (w.engine? name).elim (.failure .overflow) fun e => .got e.name e.policy)
  | .same a b => compareNames a b w
  | .size => (w, .number w.panel.size)
  | .isEmpty => (w, .flag w.panel.engines.isEmpty)
  | .settings => (w, .settings w.panel.settings)
  | .snapshots =>
    match performAll .query w.panel.names w with
    | (w, .error text) => (w, .panicked text)
    | (w, .ok replies) => (w, .snapshots (replies.filterMap viewOf))
  | .resetAll =>
    match performAll .reset w.panel.names w with
    | (w, .error text) => (w, .panicked text)
    | (w, .ok _) => (w, .wasReset)
  | .elapse span => ({ w with clock := w.clock + span }, .elapsed)
  | .on name step =>
    match w.obtain name with
    | (w, .error failure) => (w, .failure failure)
    | (w, .ok ()) => let (w, r) := runOutermost name step w; (w, .step r)
  | .setAudience audience =>
    ({ w with panel := { w.panel with audience := audience.getD w.panel.audience } }, .audienceSet)

/-- A script on a panel with the given settings. -/
def onPanel (settings : Settings) (audience : Audience) (script : List PanelStep) :
    Except (List Fault) (List (Record PanelResult)) :=
  (Panel.new settings).map fun panel =>
    runAll runPanelStep script { panel := { panel with audience } }

end Breaker.Scenario
