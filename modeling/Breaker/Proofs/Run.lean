import Breaker.Proofs.Circuit
import Breaker.Proofs.Step
import Mathlib.Data.List.Induction

/-!
# Runs of a breaker

A run is a schedule of moves, each at its instant, made one after another.  It
keeps a record of every stage: the engine that the move found, and the response
that it got.  What clients and listeners do between two moves is theirs, so a
statement about every run is one about every client, every listener and every
order of their moves.

Three things are read off a stage without looking into the library:

* `Engine.ending`: the call whose end the move reports, and how it ended;
* `Engine.evaluated`: the circuit once the move has applied what is due;
* `Stage.listenerPanics`: the panic comes out of the listener.

A life is a run of a new breaker, and `life_induction` is the induction over
its stages.  `Works` says what a move does to the circuit, whatever else it
does.  `Took.proper` keeps the one fact about frames that is needed now and
then: a method that waits for the listener answers, in the end, with a reply
that leaves the method.
-/

namespace Breaker.Engine

/-- One move of a run, with the engine it found and the response it got. -/
structure Stage where
  before : Engine
  now : Instant
  move : Move
  response : Response

/-- The stages of a run in order, and the engine that the last one left. -/
structure Run where
  stages : List Stage := []
  engine : Engine

/-- The run with one more stage. -/
def Run.snoc (run : Run) (s : Stage) : Run :=
  { stages := run.stages ++ [s], engine := s.response.engine }

/-- The run with one more move. -/
def Run.extend (run : Run) (entry : Instant × Move) : Option Run :=
  (run.engine.step entry.1 entry.2).map fun response =>
    run.snoc { before := run.engine, now := entry.1, move := entry.2, response }

/-- The run that a schedule makes, if every move of it makes sense where
control stands. -/
def run (e : Engine) (schedule : List (Instant × Move)) : Option Run :=
  schedule.foldlM Run.extend { engine := e }

/-- The run of a new breaker under a schedule. -/
def life (name : String) (policy : Policy) (audience : Audience) (start : Instant)
    (schedule : List (Instant × Move)) : Option Run :=
  (new? name policy audience start).bind fun e => e.run schedule

/-- The call whose end a move reports, and whether it ended well. -/
def ending (e : Engine) : Move → Option (Ticket × Bool)
  | .finish success =>
    match e.frames with
    | .operating t :: _ => some (t, success)
    | _ => none
  | .panic _ =>
    match e.frames with
    | .operating t :: _ => some (t, false)
    | _ => none
  | .abandon t => some (t, false)
  | _ => none

/-- Does the move begin by applying what is due? -/
def evaluates (e : Engine) (move : Move) : Bool :=
  match move with
  | .query | .call => true
  | move => (e.ending move).isSome

/-- The circuit once the move has applied what is due, if it does. -/
def evaluated (e : Engine) (now : Instant) (move : Move) : Circuit :=
  if e.evaluates move then (e.circuit.evaluate e.policy now).circuit else e.circuit

namespace Stage

/-- The response is the one that the engine gives. -/
def Valid (s : Stage) : Prop := s.before.step s.now s.move = some s.response

/-- Does the listener panic? -/
def listenerPanics (s : Stage) : Bool :=
  match s.move, s.before.frames with
  | .panic _, .listening _ _ :: _ => true
  | _, _ => false

end Stage

/-- What every step of a fold keeps holds at its end. -/
theorem foldlM_induction {α β : Type} {f : β → α → Option β} {l : List α} {motive : β → Prop}
    {b c : β} (start : motive b)
    (next : ∀ b a b', motive b → a ∈ l → f b a = some b' → motive b')
    (h : l.foldlM f b = some c) : motive c := by
  induction l generalizing b with
  | nil =>
    cases h
    exact start
  | cons a rest ih =>
    rw [List.foldlM_cons] at h
    obtain ⟨b', hstep, hrest⟩ := Option.bind_eq_some_iff.1 h
    refine ih (next b a b' start List.mem_cons_self hstep) ?_ hrest
    exact fun b a b' hb ha => next b a b' hb (List.mem_cons_of_mem _ ha)

/-- Induction over the stages of a run. -/
theorem run_induction {e : Engine} {schedule : List (Instant × Move)} {motive : Run → Prop}
    (start : motive { engine := e })
    (next : ∀ (run : Run) (s : Stage), motive run → run.engine = s.before →
      (s.now, s.move) ∈ schedule → s.Valid → motive (run.snoc s))
    {run : Run} (h : e.run schedule = some run) : motive run := by
  refine foldlM_induction start ?_ h
  intro first entry second hfirst hentry hextend
  unfold Run.extend at hextend
  obtain ⟨response, hstep, rfl⟩ := Option.map_eq_some_iff.1 hextend
  exact next first _ hfirst rfl hentry hstep

/-- Every response of a run is the one that the engine gives. -/
theorem valid_of_run {e : Engine} {schedule : List (Instant × Move)} {run : Run}
    (h : e.run schedule = some run) : ∀ s ∈ run.stages, s.Valid := by
  refine run_induction (motive := fun run => ∀ s ∈ run.stages, s.Valid) (by simp) ?_ h
  intro run s hall _ _ hvalid
  simp only [Run.snoc, List.forall_mem_append, List.forall_mem_singleton]
  exact ⟨hall, hvalid⟩

/-- A new breaker has no calls and nothing to deliver, and its window is empty. -/
theorem new?_eq_some {name : String} {policy : Policy} {audience : Audience} {start : Instant}
    {e : Engine} (h : new? name policy audience start = some e) :
    e.frames = [] ∧ e.suspended = [] ∧ e.mailbox = {} ∧ e.policy = policy ∧
      e.circuit.phase = .closed ∧ e.circuit.window = {} := by
  unfold new? at h
  obtain ⟨c, hfresh, rfl⟩ := Option.map_eq_some_iff.1 h
  obtain ⟨-, rfl⟩ := Circuit.fresh?_eq_some hfresh
  exact ⟨rfl, rfl, rfl, rfl, rfl, rfl⟩

/-- The first deadline of a new breaker. -/
theorem expiry_new {name : String} {policy : Policy} {audience : Audience} {start : Instant}
    {e : Engine} (h : new? name policy audience start = some e) :
    e.circuit.expiry = some (start + policy.closedWindow) ∧
      start + policy.closedWindow < Clock.horizon := by
  unfold new? at h
  obtain ⟨c, hfresh, rfl⟩ := Option.map_eq_some_iff.1 h
  obtain ⟨hheld, rfl⟩ := Circuit.fresh?_eq_some hfresh
  exact ⟨rfl, hheld⟩

/-- Induction over the stages of a life. -/
theorem life_induction {name : String} {policy : Policy} {audience : Audience} {start : Instant}
    {schedule : List (Instant × Move)} {run : Run} {motive : Run → Prop}
    (first : ∀ e, new? name policy audience start = some e → motive { engine := e })
    (next : ∀ (run : Run) (s : Stage), motive run → run.engine = s.before →
      (s.now, s.move) ∈ schedule → s.Valid → motive (run.snoc s))
    (h : life name policy audience start schedule = some run) : motive run := by
  obtain ⟨e, hnew, hrun⟩ := Option.bind_eq_some_iff.1 h
  exact run_induction (first e hnew) next hrun

/-- The last move of a schedule comes after the run of the others. -/
theorem run_concat {e : Engine} {rest : List (Instant × Move)} {entry : Instant × Move} {run : Run}
    (h : e.run (rest ++ [entry]) = some run) :
    ∃ first response, e.run rest = some first ∧
      first.engine.step entry.1 entry.2 = some response ∧
      run = first.snoc { before := first.engine, now := entry.1, move := entry.2, response } := by
  rw [Engine.run, List.foldlM_append] at h
  obtain ⟨first, hfirst, hlast⟩ := Option.bind_eq_some_iff.1 h
  rw [List.foldlM_cons] at hlast
  obtain ⟨last, hextend, hpure⟩ := Option.bind_eq_some_iff.1 hlast
  cases hpure
  unfold Run.extend at hextend
  obtain ⟨response, hstep, rfl⟩ := Option.map_eq_some_iff.1 hextend
  exact ⟨first, response, hfirst, hstep, rfl⟩

/-- The stages of a run are the moves of its schedule. -/
theorem run_stages {e : Engine} {schedule : List (Instant × Move)} {run : Run}
    (h : e.run schedule = some run) : run.stages.map (fun s => (s.now, s.move)) = schedule := by
  induction schedule using List.reverseRecOn generalizing run with
  | nil =>
    cases h
    rfl
  | append_singleton rest entry ih =>
    obtain ⟨first, response, hfirst, -, rfl⟩ := run_concat h
    rw [Run.snoc, List.map_append, ih hfirst]
    rfl

/-- The last move of a life comes after the life of the others. -/
theorem life_concat {name : String} {policy : Policy} {audience : Audience} {start : Instant}
    {rest : List (Instant × Move)} {entry : Instant × Move} {run : Run}
    (h : life name policy audience start (rest ++ [entry]) = some run) :
    ∃ first response, life name policy audience start rest = some first ∧
      first.engine.step entry.1 entry.2 = some response ∧
      run = first.snoc { before := first.engine, now := entry.1, move := entry.2, response } := by
  obtain ⟨e, hnew, hrun⟩ := Option.bind_eq_some_iff.1 h
  obtain ⟨first, response, hfirst, hstep, rfl⟩ := run_concat hrun
  exact ⟨first, response, Option.bind_eq_some_iff.2 ⟨e, hnew, hfirst⟩, hstep, rfl⟩

/-- A run goes on with every move that makes sense. -/
theorem run_snoc {e : Engine} {schedule : List (Instant × Move)} {run : Run} {now : Instant}
    {move : Move} {r : Response} (h : e.run schedule = some run)
    (hstep : run.engine.step now move = some r) :
    e.run (schedule ++ [(now, move)]) =
      some (run.snoc { before := run.engine, now, move, response := r }) := by
  rw [Engine.run, List.foldlM_append, ← Engine.run, h]
  simp [Run.extend, hstep]

theorem run_eq_nil {e : Engine} {schedule : List (Instant × Move)} {run : Run}
    (h : e.run schedule = some run) (hstages : run.stages = []) : run = { engine := e } := by
  have hschedule := run_stages h
  rw [hstages] at hschedule
  cases hschedule
  cases h
  rfl

/-- The last stage of a run, and the run before it. -/
theorem run_eq_concat {e : Engine} {schedule : List (Instant × Move)} {run : Run}
    {stages : List Stage} {s : Stage} (h : e.run schedule = some run)
    (hstages : run.stages = stages ++ [s]) :
    ∃ first rest, schedule = rest ++ [(s.now, s.move)] ∧ e.run rest = some first ∧
      first.stages = stages ∧ first.engine = s.before ∧ s.Valid ∧ run = first.snoc s := by
  rcases List.eq_nil_or_concat schedule with rfl | ⟨rest, entry, rfl⟩
  · cases h
    simp at hstages
  · rw [List.concat_eq_append] at h
    obtain ⟨first, response, hfirst, hstep, rfl⟩ := run_concat h
    obtain ⟨rfl, hs⟩ := List.append_inj' hstages rfl
    cases hs
    exact ⟨first, rest, List.concat_eq_append, hfirst, rfl, rfl, hstep, rfl⟩

/-- The last stage of a life, and the life before it. -/
theorem life_eq_concat {name : String} {policy : Policy} {audience : Audience} {start : Instant}
    {schedule : List (Instant × Move)} {run : Run} {stages : List Stage} {s : Stage}
    (h : life name policy audience start schedule = some run)
    (hstages : run.stages = stages ++ [s]) :
    ∃ rest, schedule = rest ++ [(s.now, s.move)] ∧
      life name policy audience start rest = some { stages, engine := s.before } ∧
      s.Valid ∧ run.engine = s.response.engine := by
  obtain ⟨e, hnew, hrun⟩ := Option.bind_eq_some_iff.1 h
  obtain ⟨first, rest, hschedule, hfirst, rfl, hbefore, hvalid, rfl⟩ := run_eq_concat hrun hstages
  rw [← hbefore]
  exact ⟨rest, hschedule, Option.bind_eq_some_iff.2 ⟨e, hnew, hfirst⟩, hvalid, rfl⟩

/-- Before each stage of a life is a life. -/
theorem life_split {name : String} {policy : Policy} {audience : Audience} {start : Instant}
    {schedule : List (Instant × Move)} {run : Run} {before after : List Stage} {s : Stage}
    (h : life name policy audience start schedule = some run)
    (hstages : run.stages = before ++ s :: after) :
    ∃ first last, schedule = first ++ (s.now, s.move) :: last ∧
      life name policy audience start first = some { stages := before, engine := s.before } ∧
      s.Valid := by
  induction after using List.reverseRecOn generalizing schedule run with
  | nil =>
    obtain ⟨rest, hschedule, hbefore, hvalid, -⟩ := life_eq_concat h hstages
    exact ⟨rest, [], hschedule, hbefore, hvalid⟩
  | append_singleton mid s' ih =>
    rw [← List.cons_append, ← List.append_assoc] at hstages
    obtain ⟨rest, rfl, hlife, -, -⟩ := life_eq_concat h hstages
    obtain ⟨first, last, rfl, hbefore, hvalid⟩ := ih hlife rfl
    exact ⟨first, last ++ [(s'.now, s'.move)], by simp, hbefore, hvalid⟩

theorem Ends.ending {e e' : Engine} {move : Move} {t : Ticket} {success : Bool} {sequel : Sequel}
    (h : e.Ends move t success e' sequel) : e.ending move = some (t, success) := by
  cases h with
  | finish success hframes => simp [Engine.ending, hframes]
  | panic text hframes => simp [Engine.ending, hframes]
  | abandon hmem => rfl

theorem Ends.policy_eq {e e' : Engine} {move : Move} {t : Ticket} {success : Bool}
    {sequel : Sequel} (h : e.Ends move t success e' sequel) : e'.policy = e.policy := by
  cases h <;> rfl

theorem evaluated_eq {e : Engine} {now : Instant} {move : Move} {outcome : Circuit.Outcome}
    (hmove : e.evaluates move = true) (heval : e.circuit.evaluate e.policy now = outcome) :
    e.evaluated now move = outcome.circuit := by
  rw [evaluated, if_pos hmove, heval]

theorem Ends.evaluated_eq {e e' : Engine} {move : Move} {t : Ticket} {success : Bool}
    {sequel : Sequel} {now : Instant} {outcome : Circuit.Outcome}
    (h : e.Ends move t success e' sequel) (heval : e.circuit.evaluate e.policy now = outcome) :
    e.evaluated now move = outcome.circuit := by
  have hends := h.ending
  refine Engine.evaluated_eq ?_ heval
  cases h <;> simp [evaluates, hends]

/-! ## The circuit of a run -/

/-- What a move does to the circuit `c`, in which what is due has been applied.
An end that the breaker takes no note of is one of an earlier generation, also
when the clock cannot hold the deadline of the new one. -/
inductive Works (e : Engine) (now : Instant) (move : Move) (c : Circuit) : Circuit → Prop where
  | keeps (hmove : move ≠ .reset)
      (hstale : ∀ t success, e.ending move = some (t, success) →
        t.generation ≠ c.generation ∨ e.circuit.generation < c.generation) :
      Works e now move c c
  | allows {c' : Circuit} (hmove : move = .call) (hallow : c.allow e.policy = .ok c') :
      Works e now move c c'
  | settles {t : Ticket} {success : Bool} (hending : e.ending move = some (t, success))
      (hcurrent : t.generation = c.generation) :
      Works e now move c (c.settle e.policy now success).circuit
  | resets (hmove : move = .reset) : Works e now move c (c.reset e.policy now).circuit

theorem Works.keeps_of_ending_none {e : Engine} {now : Instant} {move : Move} {c : Circuit}
    (hmove : move ≠ .reset) (hending : e.ending move = none) : e.Works now move c c :=
  .keeps hmove fun _ _ h => nomatch hending.symm.trans h

theorem Ends.ne_reset {e e' : Engine} {move : Move} {t : Ticket} {success : Bool} {sequel : Sequel}
    (h : e.Ends move t success e' sequel) : move ≠ .reset := by
  cases h <;> exact Move.noConfusion

theorem Took.works {e : Engine} {now : Instant} {move : Move} {r : Response}
    (h : e.Took now move r) : e.Works now move (e.evaluated now move) r.engine.circuit := by
  cases h with
  | @queried c change heval view journal =>
    rw [evaluated_eq rfl heval, (deliver_keeps _ _ _).1]
    exact .keeps_of_ending_none Move.noConfusion rfl
  | @refused c change refusal heval hallow journal =>
    rw [evaluated_eq rfl heval, (deliver_keeps _ _ _).1]
    exact .keeps_of_ending_none Move.noConfusion rfl
  | @admitted c c' change heval hallow journal =>
    rw [evaluated_eq rfl heval, (deliver_keeps _ _ _).1]
    exact .allows rfl hallow
  | @reset c change hreset journal =>
    rw [(deliver_keeps _ _ _).1]
    have hworks : e.Works now .reset e.circuit (e.circuit.reset e.policy now).circuit :=
      .resets rfl
    rw [hreset] at hworks
    exact hworks
  | @cut move c hmove heval =>
    have hev : e.evaluated now move = c := by
      rcases hmove with rfl | rfl <;> exact evaluated_eq rfl heval
    rw [hev]
    rcases hmove with rfl | rfl <;> exact .keeps_of_ending_none Move.noConfusion rfl
  | @resetCut c hreset =>
    have hworks : e.Works now .reset e.circuit (e.circuit.reset e.policy now).circuit :=
      .resets rfl
    rw [hreset] at hworks
    exact hworks
  | @ended move t success e' sequel c c' change change' hends heval hsettles journal =>
    rw [hends.evaluated_eq heval, (deliver_keeps _ _ _).1]
    rcases hsettles with ⟨hstale, rfl, -⟩ | ⟨hcurrent, hsettle⟩
    · refine .keeps hends.ne_reset fun t' success' hending => ?_
      rw [hends.ending] at hending
      cases hending
      exact .inl hstale
    · have hworks : e.Works now move c (c.settle e.policy now success).circuit :=
        .settles hends.ending hcurrent
      rw [hsettle] at hworks
      exact hworks
  | @endedCut move t success e' sequel c hends heval journal =>
    rw [hends.evaluated_eq heval]
    refine .keeps hends.ne_reset fun _ _ _ => .inr ?_
    rw [Circuit.evaluate_eq_turn] at heval
    have hgeneration := (Circuit.turn_eq_overflow heval).1
    simp only [Circuit.Outcome.circuit]
    omega
  | @settledCut move t success e' sequel c c' change hends heval hcurrent hsettle journal =>
    rw [hends.evaluated_eq heval]
    have hworks : e.Works now move c (c.settle e.policy now success).circuit :=
      .settles hends.ending hcurrent
    rw [hsettle] at hworks
    exact hworks
  | resumed hmem => exact .keeps_of_ending_none Move.noConfusion rfl
  | @suspended t frames hframes => exact .keeps_of_ending_none Move.noConfusion rfl
  | @heard t sequel frames hframes =>
    rw [(proceed_keeps { e with frames } sequel []).1]
    exact .keeps_of_ending_none Move.noConfusion rfl
  | @silenced t sequel frames text hframes =>
    have hending : e.ending (.panic text) = none := by simp [ending, hframes]
    have hev : e.evaluated now (.panic text) = e.circuit := by
      simp [evaluated, evaluates, hending]
    rw [hev]
    exact .keeps_of_ending_none Move.noConfusion hending

/-- The policy is never changed. -/
theorem Took.policy_eq {e : Engine} {now : Instant} {move : Move} {r : Response}
    (h : e.Took now move r) : r.engine.policy = e.policy := by
  cases h with
  | queried heval view journal => exact (deliver_keeps _ _ _).2
  | refused heval hallow journal => exact (deliver_keeps _ _ _).2
  | admitted heval hallow journal => exact (deliver_keeps _ _ _).2
  | reset hreset journal => exact (deliver_keeps _ _ _).2
  | cut hmove heval => rfl
  | resetCut hreset => rfl
  | ended hends heval hsettles journal =>
    rw [(deliver_keeps _ _ _).2]
    exact hends.policy_eq
  | endedCut hends heval journal => exact hends.policy_eq
  | settledCut hends heval hcurrent hsettle journal => exact hends.policy_eq
  | resumed hmem => rfl
  | suspended hframes => rfl
  | @heard t sequel frames hframes => exact (proceed_keeps { e with frames } sequel []).2
  | silenced text hframes => rfl

theorem policy_of_run {e : Engine} {schedule : List (Instant × Move)} {run : Run}
    (h : e.run schedule = some run) :
    run.engine.policy = e.policy ∧ ∀ s ∈ run.stages, s.before.policy = e.policy := by
  refine run_induction (motive := fun run => run.engine.policy = e.policy ∧
    ∀ s ∈ run.stages, s.before.policy = e.policy) ⟨rfl, by simp⟩ ?_ h
  rintro run s ⟨hpolicy, hall⟩ hbefore - hvalid
  rw [hbefore] at hpolicy
  refine ⟨(step_took hvalid).policy_eq.trans hpolicy, ?_⟩
  simp only [Run.snoc, List.forall_mem_append, List.forall_mem_singleton]
  exact ⟨hall, hpolicy⟩

/-- The clock can hold the deadlines of every stage of a run, if it can hold
those of its schedule. -/
theorem fits_of_run {e : Engine} {schedule : List (Instant × Move)} {run : Run}
    (h : e.run schedule = some run) (hfits : ∀ entry ∈ schedule, e.policy.Fits entry.1) :
    ∀ s ∈ run.stages, s.before.policy.Fits s.now := by
  intro s hs
  have hentry : (s.now, s.move) ∈ schedule := by
    rw [← run_stages h]
    exact List.mem_map_of_mem hs
  rw [(policy_of_run h).2 s hs]
  exact hfits _ hentry

/-! ## The frames of a run -/

/-- The reply ends the method without a panic. -/
def returns : Reply → Bool
  | .view _ | .wasReset | .refused _ | .completed _ | .abandoned => true
  | _ => false

/-- An answer is a reply that ends the method. -/
def isProper : Sequel → Bool
  | .answer reply => returns reply
  | _ => true

/-- Every method that waits for the listener ends with a proper sequel. -/
def Proper (e : Engine) : Prop :=
  ∀ t sequel, Frame.listening t sequel ∈ e.frames → isProper sequel = true

theorem proper_new {name : String} {policy : Policy} {audience : Audience} {start : Instant}
    {e : Engine} (h : new? name policy audience start = some e) : e.Proper := by
  intro t sequel hmem
  rw [(new?_eq_some h).1] at hmem
  cases hmem

theorem Proper.tail {e : Engine} {f : Frame} {frames : List Frame} (h : e.Proper)
    (hframes : e.frames = f :: frames) : ({ e with frames } : Engine).Proper :=
  fun t sequel hmem => h t sequel (hframes ▸ List.mem_cons_of_mem f hmem)

theorem Ends.proper {e e' : Engine} {move : Move} {t : Ticket} {success : Bool} {sequel : Sequel}
    (h : e.Ends move t success e' sequel) (hproper : e.Proper) :
    e'.Proper ∧ isProper sequel = true := by
  cases h with
  | finish success hframes => exact ⟨hproper.tail hframes, rfl⟩
  | panic text hframes => exact ⟨hproper.tail hframes, rfl⟩
  | abandon hmem => exact ⟨hproper, rfl⟩

theorem proper_conclude {e : Engine} {sequel : Sequel} (hproper : e.Proper)
    (journal : List Entry) : (e.conclude sequel journal).engine.Proper := by
  cases sequel with
  | operate t =>
    intro t' sequel hmem
    rcases List.mem_cons.1 hmem with heq | htail
    · cases heq
    · exact hproper t' sequel htail
  | answer reply => exact hproper
  | refuse r => exact hproper
  | unwind text => exact hproper

theorem proper_listening {e : Engine} {sequel : Sequel} (hproper : e.Proper)
    (hsequel : isProper sequel = true) (t : Transition) (mailbox : Mailbox) :
    ({ e with mailbox, frames := .listening t sequel :: e.frames } : Engine).Proper := by
  intro t' sequel' hmem
  rcases List.mem_cons.1 hmem with heq | htail
  · cases heq
    exact hsequel
  · exact hproper t' sequel' htail

theorem proper_deliver {e : Engine} {sequel : Sequel} (hproper : e.Proper)
    (hsequel : isProper sequel = true) (journal : List Entry) :
    (e.deliver sequel journal).engine.Proper := by
  rcases deliver_cases e sequel journal with ⟨t, rest, -, heq⟩ | ⟨-, heq⟩
  · rw [heq]
    exact proper_listening hproper hsequel t _
  · rw [heq]
    exact proper_conclude hproper journal

/-- A move keeps the frames proper. -/
theorem Took.proper {e : Engine} {now : Instant} {move : Move} {r : Response}
    (h : e.Took now move r) (hproper : e.Proper) : r.engine.Proper := by
  cases h with
  | queried heval view journal => exact proper_deliver (e := e.accept _ _) hproper rfl journal
  | refused heval hallow journal => exact proper_deliver (e := e.accept _ _) hproper rfl journal
  | admitted heval hallow journal => exact proper_deliver (by exact hproper) rfl journal
  | reset hreset journal => exact proper_deliver (e := e.accept _ _) hproper rfl journal
  | cut hmove heval => exact hproper
  | resetCut hreset => exact hproper
  | @ended move t success e' sequel c c' change change' hends heval hsettles journal =>
    obtain ⟨hproper', hsequel⟩ := hends.proper hproper
    exact proper_deliver (e := (e'.accept c change).accept c' change') hproper' hsequel journal
  | endedCut hends heval journal => exact (hends.proper hproper).1
  | settledCut hends heval hcurrent hsettle journal => exact (hends.proper hproper).1
  | resumed hmem =>
    intro t sequel hmem
    rcases List.mem_cons.1 hmem with heq | htail
    · cases heq
    · exact hproper t sequel htail
  | suspended hframes => exact hproper.tail hframes
  | @heard t sequel frames hframes =>
    have hrest := hproper.tail hframes
    have hsequel := hproper t sequel (hframes ▸ List.mem_cons_self)
    rcases proceed_cases { e with frames } sequel [] with ⟨t', rest, -, heq⟩ | ⟨-, heq⟩
    · rw [heq]
      exact proper_listening hrest hsequel t' _
    · rw [heq]
      exact proper_conclude (e := { e with frames, mailbox := {} }) hrest []
  | silenced text hframes => exact hproper.tail hframes

end Breaker.Engine
