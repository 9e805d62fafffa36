import Breaker.Proofs.Delivery
import Breaker.Proofs.Ledger

/-!
# Periods and their deadlines

Apart from the counters, a move does one of two things to the circuit: it
leaves the period alone, or it starts the next one.  `Engine.starts` reads off
the move which of the two it is, and in which phase.

There are three groups.

* One move.  `Took.circuit_eq` says that a move is one turn of the circuit and
  a change of counters, and `Took.changes_eq` that it makes at most one change
  of phase.  Both ask that the call that ends is not of a later generation,
  which `Reached` has for every state of a life.
* The timeline, which is the events of a run with their instants.
  `Run.since` is the instant at which the current period began, and a call of
  the ledger was admitted after that.
* The deadline.  `expiry_of_life` says that it is the length of the period
  after the instant at which it began, whatever has happened since.
-/

namespace Breaker

namespace Circuit

section

variable (policy : Policy) (now : Instant) (c : Circuit)

theorem phase_turn (next : Option Phase) :
    (c.turn policy now next).circuit.phase = next.getD c.phase := by
  cases next with
  | none => rfl
  | some phase => exact (circuit_turn_some policy now phase c).1

/-- A period gets its deadline when the clock can hold it, and else keeps the
deadline of the period before. -/
theorem circuit_turn_eq (phase : Phase) :
    (c.turn policy now (some phase)).circuit =
      { phase := phase
        generation := c.generation + 1
        window := {}
        expiry := (policy.period phase).bind fun span =>
          (Clock.deadline? now span).or c.expiry } := by
  simp only [turn, startPeriod]
  cases policy.period phase with
  | none => rfl
  | some span =>
    simp only [Option.bind_some]
    cases Clock.deadline? now span <;> rfl

/-- A record in the window makes no difference to the turn. -/
theorem turn_record (success : Bool) (next : Option Phase) :
    ∃ w, ((c.record success).turn policy now next).circuit =
      { (c.turn policy now next).circuit with window := w } := by
  cases next with
  | none => exact ⟨_, rfl⟩
  | some phase =>
    refine ⟨{}, ?_⟩
    rw [circuit_turn_eq, circuit_turn_eq]
    rfl

end

theorem expiry_turn {policy : Policy} {now : Instant} (hfits : policy.Fits now) (phase : Phase)
    (c : Circuit) : (c.turn policy now (some phase)).circuit.expiry =
      (policy.period phase).map (now + ·) := by
  obtain ⟨hclosed, hopen⟩ := hfits
  rw [circuit_turn_eq]
  cases phase <;>
    simp [Policy.period, Clock.deadline?_eq_some hclosed, Clock.deadline?_eq_some hopen]

end Circuit

namespace Engine

/-! ## The period that a move starts -/

/-- The phase of the period that the lapse of time starts in a move. -/
def lapses (e : Engine) (now : Instant) (move : Move) : Option Phase :=
  if e.evaluates move then e.circuit.lapse now else none

/-- The phase of the period that the move itself starts, where none has lapsed:
a reset, or the end of a call of the current generation. -/
def rules (e : Engine) (move : Move) : Option Phase :=
  match move with
  | .reset => some .closed
  | move =>
    match e.ending move with
    | some (t, success) =>
      if t.generation = e.circuit.generation then
        (e.circuit.record success).verdict e.policy success
      else none
    | none => none

/-- The phase of the period that a move starts, if it starts one. -/
def starts (e : Engine) (now : Instant) (move : Move) : Option Phase :=
  (e.lapses now move).or (e.rules move)

/-- The call that a move ends is not of a later generation. -/
def Past (e : Engine) (move : Move) : Prop :=
  ∀ t success, e.ending move = some (t, success) → t.generation ≤ e.circuit.generation

section

variable {e : Engine} {now : Instant} {move : Move}

theorem evaluated_eq_turn (e : Engine) (now : Instant) (move : Move) :
    e.evaluated now move = (e.circuit.turn e.policy now (e.lapses now move)).circuit := by
  unfold evaluated lapses
  split
  · rw [Circuit.evaluate_eq_turn]
  · rfl

/-- The end of a call begins by applying what is due. -/
theorem evaluates_of_ending {t : Ticket} {success : Bool}
    (hending : e.ending move = some (t, success)) : e.evaluates move = true := by
  unfold evaluates
  split
  · rfl
  · rfl
  · rw [hending, Option.isSome_some]

theorem evaluate_eq_turn_lapses (hmove : e.evaluates move = true) :
    e.circuit.evaluate e.policy now = e.circuit.turn e.policy now (e.lapses now move) := by
  rw [Circuit.evaluate_eq_turn, lapses, if_pos hmove]

theorem rules_of_ending_none (hmove : move ≠ .reset) (hending : e.ending move = none) :
    e.rules move = none := by
  unfold rules
  split
  · exact absurd rfl hmove
  · rw [hending]

theorem rules_of_ending {t : Ticket} {success : Bool}
    (hending : e.ending move = some (t, success)) :
    e.rules move =
      if t.generation = e.circuit.generation then
        (e.circuit.record success).verdict e.policy success
      else none := by
  unfold rules
  split
  · cases hending
  · rw [hending]

theorem starts_of_lapses {phase : Phase} (h : e.lapses now move = some phase) :
    e.starts now move = some phase := by
  rw [starts, h, Option.some_or]

theorem starts_of_not_lapses (h : e.lapses now move = none) :
    e.starts now move = e.rules move := by
  rw [starts, h, Option.none_or]

/-- A reset starts a closed period, and looks at nothing before. -/
theorem starts_reset (e : Engine) (now : Instant) : e.starts now .reset = some .closed := rfl

/-- A reset ends no call. -/
theorem past_reset (e : Engine) : e.Past .reset := by
  intro t success hending
  cases hending

/-- A call that ends in the evaluated generation is of the generation before the
move, so nothing has lapsed. -/
theorem Past.lapses_eq_none (hpast : e.Past move) {t : Ticket} {success : Bool}
    (hending : e.ending move = some (t, success))
    (hcurrent : t.generation = (e.evaluated now move).generation) :
    e.lapses now move = none := by
  cases hlapses : e.lapses now move with
  | none => rfl
  | some phase =>
    have hpast := hpast t success hending
    rw [evaluated_eq_turn, hlapses, (Circuit.circuit_turn_some _ _ _ _).2.1] at hcurrent
    omega

theorem Works.circuit_eq {c' : Circuit} (h : e.Works now move (e.evaluated now move) c')
    (hpast : e.Past move) :
    ∃ w, c' = { (e.circuit.turn e.policy now (e.starts now move)).circuit with window := w } := by
  cases h with
  | keeps hmove hstale =>
    refine ⟨(e.evaluated now move).window, ?_⟩
    rw [evaluated_eq_turn] at hstale ⊢
    cases hlapses : e.lapses now move with
    | some phase => rw [starts_of_lapses hlapses]
    | none =>
      have hrules : e.rules move = none := by
        cases hending : e.ending move with
        | none => exact rules_of_ending_none hmove hending
        | some ended =>
          obtain ⟨t, success⟩ := ended
          have hold := hstale t success hending
          simp only [hlapses, Circuit.turn_none, Circuit.Outcome.circuit] at hold
          rw [rules_of_ending hending, if_neg (by omega)]
      rw [starts_of_not_lapses hlapses, hrules]
  | allows hmove hallow =>
    obtain rfl := Circuit.allow_eq_ok hallow
    subst hmove
    refine ⟨(e.evaluated now .call).window.arrive, ?_⟩
    rw [evaluated_eq_turn]
    cases hlapses : e.lapses now .call with
    | some phase => rw [starts_of_lapses hlapses]
    | none =>
      rw [starts_of_not_lapses hlapses, rules_of_ending_none Move.noConfusion rfl]
  | @settles t success hending hcurrent =>
    have hlapses := hpast.lapses_eq_none hending hcurrent
    have hevaluated : e.evaluated now move = e.circuit := by
      rw [evaluated_eq_turn, hlapses]
      rfl
    rw [hevaluated] at hcurrent ⊢
    rw [starts_of_not_lapses hlapses, rules_of_ending hending, if_pos hcurrent,
      Circuit.settle_eq_turn]
    exact Circuit.turn_record e.policy now e.circuit success _
  | resets hmove =>
    subst hmove
    refine ⟨{}, ?_⟩
    rw [starts_reset, Circuit.reset_eq_turn, Circuit.circuit_turn_eq, Circuit.circuit_turn_eq]
    rfl

/-- Apart from the counters, a move is one turn of the circuit. -/
theorem Took.circuit_eq {r : Response} (h : e.Took now move r) (hpast : e.Past move) :
    ∃ w, r.engine.circuit =
      { (e.circuit.turn e.policy now (e.starts now move)).circuit with window := w } :=
  h.works.circuit_eq hpast

theorem Took.phase_eq {r : Response} (h : e.Took now move r) (hpast : e.Past move) :
    r.engine.circuit.phase = (e.starts now move).getD e.circuit.phase := by
  obtain ⟨w, hcircuit⟩ := h.circuit_eq hpast
  rw [hcircuit]
  exact Circuit.phase_turn _ _ _ _

/-- A move makes at most one change of phase. -/
theorem Took.changes_eq {r : Response} (h : e.Took now move r) (hpast : e.Past move) :
    Stage.changes { before := e, now, move, response := r } =
      (e.circuit.phase.change ((e.starts now move).getD e.circuit.phase)).toList := by
  simp only [Stage.changes]
  rw [h.phase_eq hpast, evaluated_eq_turn, Circuit.phase_turn]
  cases hlapses : e.lapses now move with
  | some phase => simp [starts_of_lapses hlapses]
  | none => simp

/-- A change of phase is the start of a period in another phase. -/
theorem Took.mem_changes_iff {r : Response} (h : e.Took now move r) (hpast : e.Past move)
    {p q : Phase} :
    { source := p, target := q } ∈ Stage.changes { before := e, now, move, response := r } ↔
      e.circuit.phase = p ∧ p ≠ q ∧ e.starts now move = some q := by
  rw [h.changes_eq hpast, Phase.mem_change_iff]
  cases e.starts now move with
  | none => simp
  | some phase =>
    constructor
    · rintro ⟨rfl, rfl, hne⟩
      exact ⟨rfl, hne, rfl⟩
    · rintro ⟨rfl, hne, hphase⟩
      cases hphase
      exact ⟨rfl, rfl, hne⟩

theorem began_notMem_deed (e : Engine) (now : Instant) (move : Move) :
    Event.began ∉ e.deed now move := by
  unfold deed
  split
  · split <;> simp
  · simp
  · split <;> simp

/-- A generation begins with every new period, and only then. -/
theorem Took.began_mem_iff {r : Response} (h : e.Took now move r) (hpast : e.Past move) :
    Event.began ∈ Stage.events { before := e, now, move, response := r } ↔
      (e.starts now move).isSome := by
  obtain ⟨w, hcircuit⟩ := h.circuit_eq hpast
  have hgeneration : ∀ next : Option Phase,
      (e.circuit.turn e.policy now next).circuit.generation =
        e.circuit.generation + next.isSome.toNat := by
    intro next
    cases next with
    | none => rfl
    | some phase => exact (Circuit.circuit_turn_some _ _ _ _).2.1
  have hinvocation : Event.began ∉ invocation move r.reply := by
    intro hmem
    obtain ⟨n, hn⟩ := exists_of_mem_invocation hmem
    cases hn
  simp only [Stage.events, List.mem_append, mem_turned, began_notMem_deed, hinvocation, or_false,
    true_and]
  rw [hcircuit, evaluated_eq_turn, hgeneration]
  simp only [hgeneration]
  cases hlapses : e.lapses now move with
  | some phase => simp [starts_of_lapses hlapses]
  | none => cases hstarts : e.starts now move <;> simp

/-- Every reset begins a generation, whatever phase it finds. -/
theorem Stage.began_mem_of_reset {s : Stage} (hvalid : s.Valid) (hreset : s.move = .reset) :
    Event.began ∈ s.events := by
  obtain ⟨e, now, move, r⟩ := s
  obtain rfl : move = .reset := hreset
  refine ((step_took hvalid).began_mem_iff (past_reset e)).2 ?_
  rw [starts_reset, Option.isSome_some]

end

/-! ## States of a life -/

/-- What holds of every state of a life, whatever the clock and the listener
do. -/
structure Reached (policy : Policy) (run : Run) : Prop where
  policy_eq : run.engine.policy = policy
  proper : run.engine.Proper
  tracks : run.ledger.Tracks run.engine.account

section

variable {name : String} {policy : Policy} {audience : Audience} {start : Instant}
variable {schedule : List (Instant × Move)} {run : Run}

theorem reached_new {e : Engine} (h : new? name policy audience start = some e) :
    Reached policy { engine := e } :=
  ⟨(new?_eq_some h).2.2.2.1, proper_new h, tracks_new h⟩

theorem Reached.snoc {s : Stage} (h : Reached policy run) (hbefore : run.engine = s.before)
    (hvalid : s.Valid) : Reached policy (run.snoc s) := by
  obtain ⟨hpolicy, hproper, htracks⟩ := h
  rw [hbefore] at hpolicy hproper htracks
  have took := step_took hvalid
  refine ⟨took.policy_eq.trans hpolicy, took.proper hproper, ?_⟩
  rw [Run.ledger_snoc]
  exact htracks.foldl_note (htracks.passes hproper hvalid)

/-- Induction over the stages of a life, each of which finds a reached state. -/
theorem reached_induction {motive : Run → Prop}
    (first : ∀ e, new? name policy audience start = some e → motive { engine := e })
    (next : ∀ (run : Run) (s : Stage), Reached policy run → motive run → run.engine = s.before →
      (s.now, s.move) ∈ schedule → s.Valid → motive (run.snoc s))
    (hlife : life name policy audience start schedule = some run) :
    Reached policy run ∧ motive run := by
  refine life_induction (motive := fun run => Reached policy run ∧ motive run)
    (fun e hnew => ⟨reached_new hnew, first e hnew⟩) ?_ hlife
  rintro run s ⟨hreached, hmotive⟩ hbefore hentry hvalid
  exact ⟨hreached.snoc hbefore hvalid, next run s hreached hmotive hbefore hentry hvalid⟩

theorem reached_of_life (hlife : life name policy audience start schedule = some run) :
    Reached policy run :=
  (reached_induction (motive := fun _ => True) (fun _ _ => trivial)
    (fun _ _ _ _ _ _ _ => trivial) hlife).1

theorem Reached.past (h : Reached policy run) {now : Instant} {move : Move} {r : Response}
    (took : run.engine.Took now move r) : run.engine.Past move :=
  fun t _ hending => h.tracks.past t (took.ending_mem hending)

/-! ## The timeline -/

/-- The events of a run in order, each with its instant. -/
def Run.timeline (run : Run) : List (Instant × Event) :=
  run.stages.flatMap fun s => s.events.map fun event => (s.now, event)

theorem Run.timeline_snoc (run : Run) (s : Stage) :
    (run.snoc s).timeline = run.timeline ++ s.events.map fun event => (s.now, event) := by
  simp [Run.timeline, Run.snoc, List.flatMap_append]

theorem Run.ledger_eq_timeline (run : Run) :
    run.ledger = (run.timeline.map Prod.snd).foldl Ledger.note {} := by
  simp [Run.ledger, Run.timeline, List.map_flatMap, Function.comp_def]

/-- The instant of the last start of a generation in a timeline. -/
def lastBegan (start : Instant) (timeline : List (Instant × Event)) : Instant :=
  timeline.foldl (fun since entry => if entry.2 = .began then entry.1 else since) start

theorem lastBegan_append (start : Instant) (timeline more : List (Instant × Event)) :
    lastBegan start (timeline ++ more) = lastBegan (lastBegan start timeline) more :=
  List.foldl_append

theorem lastBegan_of_notMem {timeline : List (Instant × Event)}
    (h : ∀ entry ∈ timeline, entry.2 ≠ .began) (start : Instant) :
    lastBegan start timeline = start := by
  induction timeline with
  | nil => rfl
  | cons entry timeline ih =>
    obtain ⟨hentry, hrest⟩ := List.forall_mem_cons.1 h
    rw [lastBegan, List.foldl_cons, if_neg hentry]
    exact ih hrest

/-- The events of one stage are all of one instant. -/
theorem lastBegan_stage (start now : Instant) (events : List Event) :
    lastBegan start (events.map fun event => (now, event)) =
      if Event.began ∈ events then now else start := by
  induction events generalizing start with
  | nil => rfl
  | cons event events ih =>
    rw [List.map_cons, lastBegan, List.foldl_cons, ← lastBegan, ih]
    by_cases hbegan : event = .began
    · simp [hbegan]
    · simp [hbegan, Ne.symm hbegan]

/-- The instant at which the current period of a life began. -/
def Run.since (start : Instant) (run : Run) : Instant := lastBegan start run.timeline

theorem Run.since_snoc (start : Instant) (run : Run) (s : Stage) :
    (run.snoc s).since start = if Event.began ∈ s.events then s.now else run.since start := by
  rw [Run.since, Run.timeline_snoc, lastBegan_append, lastBegan_stage, ← Run.since]

/-- The clock never goes back. -/
def Chronological (start : Instant) (schedule : List (Instant × Move)) : Prop :=
  (start :: schedule.map Prod.fst).Pairwise (· ≤ ·)

instance (start : Instant) (schedule : List (Instant × Move)) :
    Decidable (Chronological start schedule) :=
  inferInstanceAs (Decidable (List.Pairwise _ _))

/-- The instants of a life are those of its schedule. -/
theorem Chronological.stages (hclock : Chronological start schedule)
    (hlife : life name policy audience start schedule = some run) :
    (∀ s ∈ run.stages, start ≤ s.now) ∧ run.stages.Pairwise (·.now ≤ ·.now) := by
  obtain ⟨e, -, hrun⟩ := Option.bind_eq_some_iff.1 hlife
  rw [Chronological, ← run_stages hrun, List.map_map, List.pairwise_cons, List.pairwise_map]
    at hclock
  refine ⟨fun s hs => hclock.1 _ (List.mem_map_of_mem hs), hclock.2⟩

theorem Chronological.timeline (hclock : Chronological start schedule)
    (hlife : life name policy audience start schedule = some run) :
    (start :: run.timeline.map Prod.fst).Pairwise (· ≤ ·) := by
  obtain ⟨hstart, hstages⟩ := hclock.stages hlife
  rw [List.pairwise_cons, Run.timeline, List.map_flatMap, List.pairwise_flatMap]
  refine ⟨?_, ?_, ?_⟩
  · intro instant hmem
    obtain ⟨s, hs, hmem⟩ := List.mem_flatMap.1 hmem
    simp only [List.map_map, List.mem_map, Function.comp_apply] at hmem
    obtain ⟨-, -, rfl⟩ := hmem
    exact hstart s hs
  · intro s _
    simp
  · refine hstages.imp ?_
    intro s s' hle instant hmem instant' hmem'
    simp only [List.map_map, List.mem_map, Function.comp_apply] at hmem hmem'
    obtain ⟨-, -, rfl⟩ := hmem
    obtain ⟨-, -, rfl⟩ := hmem'
    exact hle

/-- A call of the ledger was admitted after the last start of a generation. -/
theorem mem_calls_timeline {timeline : List (Instant × Event)} {n : Nat}
    (h : n ∈ ((timeline.map Prod.snd).foldl Ledger.note {}).calls) :
    ∃ before instant after, timeline = before ++ (instant, .admitted n) :: after ∧
      ∀ entry ∈ after, entry.2 ≠ .began := by
  induction timeline using List.reverseRecOn with
  | nil => cases h
  | append_singleton rest entry ih =>
    obtain ⟨instant, event⟩ := entry
    rw [List.map_append, List.foldl_append] at h
    -- Unless the event admits the call itself, the call was in the ledger before it.
    have hold : event ≠ .began → n ∈ ((rest.map Prod.snd).foldl Ledger.note {}).calls →
        ∃ before instant' after,
          rest ++ [(instant, event)] = before ++ (instant', .admitted n) :: after ∧
            ∀ entry ∈ after, entry.2 ≠ .began := by
      intro hevent hmem
      obtain ⟨before, instant', after, hrest, hafter⟩ := ih hmem
      refine ⟨before, instant', after ++ [(instant, event)], by simp [hrest], ?_⟩
      exact List.forall_mem_append.2 ⟨hafter, by simpa using hevent⟩
    cases event with
    | began => cases h
    | admitted m =>
      rcases List.mem_append.1 h with hbefore | hnew
      · exact hold Event.noConfusion hbefore
      · obtain rfl := List.mem_singleton.1 hnew
        exact ⟨rest, instant, [], rfl, by simp⟩
    | invoked m =>
      refine hold Event.noConfusion ?_
      rw [← Ledger.calls_invoked]
      exact h
    | struck m =>
      refine hold Event.noConfusion ?_
      rw [← Ledger.calls_struck]
      exact h
    | ended m success =>
      refine hold Event.noConfusion ?_
      rw [← Ledger.calls_ended]
      exact h

/-- When the clock never goes back, whatever follows the last start of a
generation is not earlier. -/
theorem lastBegan_le {before after : List (Instant × Event)} {instant : Instant} {event : Event}
    (hclock : (start :: (before ++ (instant, event) :: after).map Prod.fst).Pairwise (· ≤ ·))
    (hevent : event ≠ .began) (hafter : ∀ entry ∈ after, entry.2 ≠ .began) :
    lastBegan start (before ++ (instant, event) :: after) ≤ instant := by
  have hrest : ∀ entry ∈ (instant, event) :: after, entry.2 ≠ .began :=
    List.forall_mem_cons.2 ⟨hevent, hafter⟩
  rw [lastBegan_append, lastBegan_of_notMem hrest]
  induction before generalizing start with
  | nil => exact (List.pairwise_cons.1 hclock).1 instant (by simp)
  | cons entry before ih =>
    rw [lastBegan, List.foldl_cons, ← lastBegan]
    have htail := (List.pairwise_cons.1 hclock).2
    split
    · exact ih htail
    · refine ih (List.pairwise_cons.2 ⟨?_, (List.pairwise_cons.1 htail).2⟩)
      intro later hlater
      exact (List.pairwise_cons.1 hclock).1 later (List.mem_cons_of_mem _ hlater)

/-- A call of the ledger was admitted in the current period. -/
theorem call_admitted (hlife : life name policy audience start schedule = some run) {n : Nat}
    (hn : n ∈ run.ledger.calls) :
    ∃ before instant after, run.timeline = before ++ (instant, .admitted n) :: after ∧
      (∀ entry ∈ after, entry.2 ≠ .began) ∧
      (Chronological start schedule → run.since start ≤ instant) := by
  rw [Run.ledger_eq_timeline] at hn
  obtain ⟨before, instant, after, htimeline, hafter⟩ := mem_calls_timeline hn
  refine ⟨before, instant, after, htimeline, hafter, fun hclock => ?_⟩
  have htimes := hclock.timeline hlife
  rw [htimeline] at htimes
  rw [Run.since, htimeline]
  exact lastBegan_le htimes Event.noConfusion hafter

/-! ## The deadline -/

/-- The deadline is that of the period which began last. -/
theorem expiry_of_life (hlife : life name policy audience start schedule = some run)
    (hfits : ∀ entry ∈ schedule, policy.Fits entry.1) :
    run.engine.circuit.expiry =
      (policy.period run.engine.circuit.phase).map (run.since start + ·) := by
  refine (reached_induction (motive := fun run => run.engine.circuit.expiry =
    (policy.period run.engine.circuit.phase).map (run.since start + ·)) ?_ ?_ hlife).2
  · intro e hnew
    show e.circuit.expiry = (policy.period e.circuit.phase).map (start + ·)
    rw [(expiry_new hnew).1, (new?_eq_some hnew).2.2.2.2.1]
    rfl
  · rintro run ⟨e, now, move, r⟩ hreached hexpiry rfl hentry hvalid
    have took := step_took hvalid
    obtain ⟨w, hcircuit⟩ := took.circuit_eq (hreached.past took)
    have hbegan := took.began_mem_iff (hreached.past took)
    have hnow : policy.Fits now := hfits _ hentry
    rw [hreached.policy_eq] at hcircuit
    rw [Run.since_snoc]
    change r.engine.circuit.expiry = (policy.period r.engine.circuit.phase).map _
    rw [hcircuit]
    cases hstarts : run.engine.starts now move with
    | none =>
      rw [if_neg (by simp [hbegan, hstarts])]
      exact hexpiry
    | some phase =>
      rw [if_pos (hbegan.2 (by simp [hstarts]))]
      simp only [Circuit.expiry_turn hnow, Circuit.phase_turn, Option.getD_some]

end

end Engine

end Breaker
