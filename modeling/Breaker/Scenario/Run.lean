import Breaker.Scenario.World

/-!
# Running scripts

`Scenario.runStep` takes one step of a script, `Scenario.runSteps` a script up
to the first panic.  `Scenario.hear` is the listener of the outermost script:
it records the transition and runs the reactions that match.  While it does,
no second delivery starts, so the scripts of reactions run with a listener that
has nothing to do.
-/

namespace Breaker.Scenario

open World

/-- The operation of a call ends; what its caller sees. -/
def endCall (ear : Ear) (name : String) (ending : Ending) (text : String) (w : World) :
    World × CallEnd :=
  let move : Move :=
    match ending with
    | .ok => .finish true
    | .err => .finish false
    | .panic => .panic text
  match w.perform ear name move with
  | (w, .panicked text) => (w, .panicked text)
  | (w, _) => (w, match ending with | .ok => .ok text | _ => .failed text)

/-- Asks for admission; the operation of an admitted call is left running. -/
def admission (ear : Ear) (name : String) (w : World) : World × Except CallEnd Ticket :=
  match w.perform ear name .call with
  | (w, .operating t) => (w, .ok t)
  | (w, .refused r) => (w, .error (.refused r))
  | (w, .panicked text) => (w, .error (.panicked text))
  | (w, _) => (w, .error (.panicked Clock.overflowText))

/-- A call whose operation ends at once, and whether the operation ran. -/
def plainCall (ear : Ear) (name : String) (ending : Ending) (text : String) (w : World) :
    World × CallEnd × Bool :=
  match admission ear name w with
  | (w, .ok _) => let (w, outcome) := endCall ear name ending text w; (w, outcome, true)
  | (w, .error outcome) => (w, outcome, false)

/-- The same call many times, counted by how it ends, up to the first call that
a panic leaves: the panic is then the result. -/
def series (ear : Ear) (name : String) (ending : Ending) :
    Nat → List (String × Nat) → World → World × Result
  | 0, ends, w => (w, .tally ends)
  | times + 1, ends, w =>
    let (w, outcome, _) := plainCall ear name ending "" w
    match outcome.tallied with
    | .error text => (w, .panicked text)
    | .ok word =>
      series ear name ending times
        ((word, (ends.lookup word).getD 0 + 1) :: ends.filter fun e => e.1 != word) w

/-- Polls the call of that name.  While it is polled it has no name. -/
def poll (ear : Ear) (id : String) (w : World) : World × Result :=
  match w.takeFuture id with
  | (w, none) => (w, .unknownId)
  | (w, some (.created breaker)) =>
    match admission ear breaker w with
    | (w, .ok t) =>
      let (w, _) := w.perform ear breaker .suspend
      (w.putFuture id (.waiting breaker t), .pending)
    | (w, .error outcome) => (w, .ended breaker outcome false none)
  | (w, some (.waiting breaker t)) =>
    let (w, _) := w.perform ear breaker (.resume t)
    let (w, _) := w.perform ear breaker .suspend
    (w.putFuture id (.waiting breaker t), .pending)

/-- Polls the call of that name after its operation was told to end. -/
def finish (ear : Ear) (id : String) (ending : Ending) (text : String) (w : World) :
    World × Result :=
  match w.takeFuture id with
  | (w, none) => (w, .unknownId)
  | (w, some (.created breaker)) =>
    let (w, outcome, ran) := plainCall ear breaker ending text w
    (w, .ended breaker outcome ran none)
  | (w, some (.waiting breaker t)) =>
    let (w, _) := w.perform ear breaker (.resume t)
    let (w, outcome) := endCall ear breaker ending text w
    (w, .ended breaker outcome true none)

/-- Gives up the call of that name. -/
def drop (ear : Ear) (id : String) (w : World) : World × Result :=
  match w.takeFuture id with
  | (w, none) => (w, .unknownId)
  | (w, some (.created _)) => (w, .dropped)
  | (w, some (.waiting breaker t)) =>
    match w.perform ear breaker (.abandon t) with
    | (w, .panicked text) => (w, .panicked text)
    | (w, _) => (w, .dropped)

/-- Names a new call; one that had the name is given up. -/
def create (ear : Ear) (name id : String) (w : World) : World :=
  let (w, _) := drop ear id w
  w.putFuture id (.created name)

/-- Asks the breaker for what it shows. -/
def query (ear : Ear) (name : String) (show? : View → Result) (w : World) : World × Result :=
  match w.perform ear name .query with
  | (w, .view v) => (w, show? v)
  | (w, .panicked text) => (w, .panicked text)
  | (w, _) => (w, .skipped)

/-- Runs a workload on the breaker and reports on it. -/
def simulate (ear : Ear) (name : String) (load : Workload) (w : World) : World × Result :=
  let audience := (w.engine? name).elim .client Engine.audience
  let w := w.note name audience
    [.simulating load.calls load.concurrency load.failureRate]
  let run := Simulation.run (World.host ear name) load 0 w
  match run.panicked with
  | some text => (run.world, .panicked text)
  | none =>
    query ear name (fun v => .report ((Report.simulation run.outcomes name v).pretty 0)) run.world

mutual

/-- One step of a script on the breaker `name`; `error` is a panic that leaves
the script. -/
def runStep (ear : Ear) (name : String) : Step → World → World × Except String Result
  | .call ending text, w =>
    let (w, outcome, ran) := plainCall ear name ending text w
    (w, .ok (.ended name outcome ran none))
  | .callDuring ending text during, w =>
    match admission ear name w with
    | (w, .error outcome) => (w, .ok (.ended name outcome false (some [])))
    | (w, .ok _) =>
      let (w, results, panicked) := runSteps ear name during w
      let (w, outcome) :=
        match panicked with
        | some text => endCall ear name .panic text w
        | none => endCall ear name ending text w
      (w, .ok (.ended name outcome true (some results)))
  | .series ending times, w =>
    let (w, r) := series ear name ending times [] w; (w, .ok r)
  | .create id, w => (create ear name id w, .ok .created)
  | .poll id, w => let (w, r) := poll ear id w; (w, .ok r)
  | .start id, w => let (w, r) := poll ear id (create ear name id w); (w, .ok r)
  | .finish id ending text, w => let (w, r) := finish ear id ending text w; (w, .ok r)
  | .drop id, w => let (w, r) := drop ear id w; (w, .ok r)
  | .elapse span, w => ({ w with clock := w.clock + span }, .ok .elapsed)
  | .phase, w => let (w, r) := query ear name (.phase ·.phase) w; (w, .ok r)
  | .counters, w => let (w, r) := query ear name (.counters ·.window) w; (w, .ok r)
  | .generation, w => let (w, r) := query ear name (.generation ·.generation) w; (w, .ok r)
  | .snapshot, w => let (w, r) := query ear name (.snapshot name) w; (w, .ok r)
  | .failureRate, w =>
    let (w, r) := query ear name (.failureRate ·.window.failureRate) w; (w, .ok r)
  | .reset, w =>
    match w.perform ear name .reset with
    | (w, .panicked text) => (w, .ok (.panicked text))
    | (w, _) => (w, .ok .wasReset)
  | .name, w => (w, .ok (.name name))
  | .policy, w => (w, .ok ((w.engine? name).elim .skipped fun e => .policy e.policy))
  | .technical, w => (w, .ok ((w.engine? name).elim .skipped fun e => .technical e.technical))
  | .simulate load, w => let (w, r) := simulate ear name load w; (w, .ok r)
  | .panic text, w => (w, if w.isUnwinding name then .ok .skipped else .error text)

/-- The steps of a script in order, up to a panic that leaves it: the results
so far, and the panic. -/
def runSteps (ear : Ear) (name : String) :
    List Step → World → World × List Result × Option String
  | [], w => (w, [], none)
  | step :: rest, w =>
    match runStep ear name step w with
    | (w, .error text) => (w, [], some text)
    | (w, .ok result) =>
      let (w, results, panicked) := runSteps ear name rest w
      (w, result :: results, panicked)

end

/-- Records a transition, with what the listener did about it. -/
def remember (name : String) (t : Transition) (did : List Result) (w : World) : World :=
  { w with events := w.events ++ [{ name, transition := t, did }] }

/-- A client's listener that only records. -/
def takeNote : Ear := fun name t w =>
  match (w.engine? name).map Engine.audience with
  | some (.client _) => (remember name t [] w, none)
  | _ => (w, none)

/-- The reactions to a move to `target` that have runs left, with one run of
each used up. -/
def choose (target : Phase) (w : World) : World × List (List Step) :=
  let matching (r : Reaction) : Bool := decide (r.target = target ∧ 0 < r.left)
  ({ w with
      reactions := w.reactions.map fun r =>
        if matching r then { r with left := r.left - 1 } else r },
    (w.reactions.filter matching).map Reaction.script)

/-- Runs the scripts of reactions one after another, up to a panic. -/
def react (name : String) : List (List Step) → World → World × List Result × Option String
  | [], w => (w, [], none)
  | script :: rest, w =>
    match runSteps takeNote name script w with
    | (w, results, some text) => (w, results, some text)
    | (w, results, none) =>
      let (w, more, panicked) := react name rest w
      (w, results ++ more, panicked)

/-- A client's listener that records and reacts. -/
def hear : Ear := fun name t w =>
  match (w.engine? name).map Engine.audience with
  | some (.client _) =>
    let (w, scripts) := choose t.target w
    let (w, results, panicked) := react name scripts w
    (remember name t results w, panicked)
  | _ => (w, none)

/-- The steps of the outermost script, each with its record. -/
def runAll {α β : Type} (run : α → World → World × β) : List α → World → List (Record β)
  | [], _ => []
  | step :: rest, w =>
    let (w, result) := run step w
    let (w, record) := w.collect result
    record :: runAll run rest w

/-- A step of the outermost script: a panic that leaves it is its result. -/
def runOutermost (name : String) (step : Step) (w : World) : World × Result :=
  match runStep hear name step w with
  | (w, .ok result) => (w, result)
  | (w, .error text) => (w, .panicked text)

/-- A script on one breaker, which is built at instant zero: without a policy,
the built-in one counts and is not checked. -/
def onBreaker (name : String) (policy : Option Policy) (audience : Audience)
    (reactions : List Reaction) (script : List Step) :
    Except Panel.Failure (List (Record Result)) :=
  let faults := policy.elim [] (·.faults name)
  if faults.isEmpty then
    match Engine.new? name (policy.getD {}) audience 0 with
    | none => .error .overflow
    | some engine =>
      .ok (runAll (runOutermost name) script { panel := { engines := [engine] }, reactions })
  else .error (.faults faults)

end Breaker.Scenario
