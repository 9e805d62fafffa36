import Breaker.Proofs.OpenPeriod

/-!
# Generations and periods

A call carries the generation it was admitted in, and its end is counted when
that number is still the current one.  This is safe because a number is never
used twice: whatever moves lie between two points of a life, if the generation
is the same at both, then it has been the same period all along.

There are three groups.

* One move.  `Stage.turns` counts what starts a period in a stage, without
  looking at the generation: the changes of phase, a window that rolls over and
  a reset that changes no phase.  `Stage.turns_of_reset` says that this makes one
  for every reset, `Took.generation_eq` that the generation goes up by that
  number, and `Took.same_period` what a move does that leaves it alone.
* The way between two points of a life, by induction over the moves between
  them.
* Open periods, in which no call is ever counted: `settled_ne_opened` says that
  the end of a call is never written into the window of an open circuit.

No hypothesis is made about the clock or about the listener.
-/

namespace Breaker

namespace Window

/-- The totals of a window are at least those of another. -/
structure Grown (w w' : Window) : Prop where
  requests_le : w.requests ≤ w'.requests
  successes_le : w.successes ≤ w'.successes
  failures_le : w.failures ≤ w'.failures

/-- The totals have not run past the cap. -/
structure Capped (w : Window) : Prop where
  requests_le : w.requests ≤ cap
  successes_le : w.successes ≤ cap
  failures_le : w.failures ≤ cap

theorem Grown.refl (w : Window) : w.Grown w := ⟨Nat.le_refl _, Nat.le_refl _, Nat.le_refl _⟩

theorem Grown.trans {w w' w'' : Window} (h : w.Grown w') (h' : w'.Grown w'') : w.Grown w'' :=
  ⟨h.requests_le.trans h'.requests_le, h.successes_le.trans h'.successes_le,
    h.failures_le.trans h'.failures_le⟩

/-- A count that has not run past the cap is not made smaller by it. -/
theorem le_bump {n : Nat} (h : n ≤ cap) : n ≤ bump n := by
  unfold bump
  omega

theorem Capped.grown_arrive {w : Window} (h : w.Capped) : w.Grown w.arrive :=
  ⟨le_bump h.requests_le, Nat.le_refl _, Nat.le_refl _⟩

theorem Capped.grown_record {w : Window} (h : w.Capped) (success : Bool) :
    w.Grown (w.record success) := by
  cases success with
  | true => exact ⟨Nat.le_refl _, le_bump h.successes_le, Nat.le_refl _⟩
  | false => exact ⟨Nat.le_refl _, Nat.le_refl _, le_bump h.failures_le⟩

end Window

namespace Circuit

variable {policy : Policy} {now : Instant} {c : Circuit}

/-- No outcome leads to the phase that the circuit is in. -/
theorem verdict_ne_self (success : Bool) : c.verdict policy success ≠ some c.phase := by
  intro h
  unfold verdict at h
  split at h
  · rename_i hphase
    rw [hphase] at h
    split at h <;> cases h
  · rename_i hphase
    rw [hphase] at h
    cases h
  · rename_i hphase
    rw [hphase] at h
    split at h <;> cases h
  · cases h

/-- Only a window that rolls over is followed by a period in the same phase. -/
theorem lapse_eq_self_iff : c.lapse now = some c.phase ↔ c.phase = .closed ∧ c.isDue now = true := by
  unfold lapse
  cases hphase : c.phase with
  | closed => simp
  | opened => simp
  | halfOpen => simp [isDue, hphase]

end Circuit

namespace Engine

/-! ## The turns of a stage -/

/-- A closed window is over, and the move asks. -/
def Stage.rollsOver (s : Stage) : Bool :=
  s.before.evaluates s.move && decide (s.before.circuit.phase = .closed) &&
    s.before.circuit.isDue s.now

/-- A reset finds the circuit closed. -/
def Stage.resetsClosed (s : Stage) : Bool :=
  decide (s.move = .reset ∧ s.before.circuit.phase = .closed)

/-- How many periods a stage starts: one for every change of phase, one for a
window that rolls over, and one for a reset that changes no phase. -/
def Stage.turns (s : Stage) : Nat :=
  s.changes.length + s.rollsOver.toNat + s.resetsClosed.toNat

section

variable {e : Engine} {now : Instant} {move : Move} {r : Response}

theorem length_change (p q : Phase) : (p.change q).toList.length = if p = q then 0 else 1 := by
  unfold Phase.change
  split <;> rfl

/-- A move starts a period in the phase that the circuit is in when a window
rolls over, or when it resets a closed circuit. -/
theorem Stage.starts_eq_self_iff (s : Stage) :
    s.before.starts s.now s.move = some s.before.circuit.phase ↔
      s.rollsOver = true ∨ s.resetsClosed = true := by
  obtain ⟨e, now, move, r⟩ := s
  simp only [Stage.rollsOver, Stage.resetsClosed, Bool.and_eq_true, decide_eq_true_eq]
  cases hlapses : e.lapses now move with
  | some phase =>
    rw [starts_of_lapses hlapses]
    unfold lapses at hlapses
    split at hlapses
    · rename_i hasks
      have hmove : move ≠ .reset := by
        rintro rfl
        cases hasks
      rw [← hlapses, Circuit.lapse_eq_self_iff]
      simp [hasks, hmove]
    · cases hlapses
  | none =>
    rw [starts_of_not_lapses hlapses]
    have hroll : ¬ ((e.evaluates move = true ∧ e.circuit.phase = .closed) ∧
        e.circuit.isDue now = true) := by
      rintro ⟨⟨hasks, hphase⟩, hdue⟩
      rw [lapses, if_pos hasks, Circuit.lapse, if_pos hdue] at hlapses
      cases hlapses
    simp only [hroll, false_or]
    by_cases hmove : move = .reset
    · subst hmove
      simp only [rules, Option.some.injEq, true_and]
      exact eq_comm
    · simp only [hmove, false_and, iff_false]
      cases hending : e.ending move with
      | none =>
        rw [rules_of_ending_none hmove hending]
        exact (Option.some_ne_none _).symm
      | some ended =>
        rw [rules_of_ending hending]
        split
        · exact Circuit.verdict_ne_self (c := e.circuit.record ended.2) ended.2
        · exact (Option.some_ne_none _).symm

/-- A reset does not ask whether the window is over. -/
theorem Stage.rollsOver_of_resetsClosed {s : Stage} (h : s.resetsClosed = true) :
    s.rollsOver = false := by
  simp only [Stage.resetsClosed, decide_eq_true_eq] at h
  simp [Stage.rollsOver, h.1, evaluates, ending]

/-- A stage starts at most one period. -/
theorem Took.turns_eq (h : e.Took now move r) (hpast : e.Past move) :
    Stage.turns { before := e, now, move, response := r } =
      (e.starts now move).isSome.toNat := by
  have hself := Stage.starts_eq_self_iff { before := e, now, move, response := r }
  simp only at hself
  unfold Stage.turns
  rw [h.changes_eq hpast, length_change]
  by_cases hsame : e.starts now move = some e.circuit.phase
  · rw [hsame] at hself ⊢
    cases hreset : Stage.resetsClosed { before := e, now, move, response := r } with
    | true => simp [Stage.rollsOver_of_resetsClosed hreset]
    | false => simpa [hreset] using hself
  · obtain ⟨hroll, hreset⟩ := not_or.1 (mt hself.2 hsame)
    rw [Bool.not_eq_true] at hroll hreset
    rw [hroll, hreset]
    cases hstarts : e.starts now move with
    | none => simp
    | some phase =>
      rw [hstarts] at hsame
      have hne : e.circuit.phase ≠ phase := fun heq => hsame (heq ▸ rfl)
      simp [hne]

/-- A stage starts a period when the start of a generation is noted in it. -/
theorem Took.turns_eq_ite (h : e.Took now move r) (hpast : e.Past move) :
    Stage.turns { before := e, now, move, response := r } =
      if Event.began ∈ Stage.events { before := e, now, move, response := r } then 1 else 0 := by
  have hbegan := h.began_mem_iff hpast
  rw [h.turns_eq hpast]
  cases hstarts : e.starts now move with
  | none =>
    rw [if_neg (by simp [hbegan, hstarts])]
    rfl
  | some phase =>
    rw [if_pos (by simp [hbegan, hstarts])]
    rfl

/-- Every reset starts exactly one period: a change of phase, or, in a closed
circuit, a period in the same phase. -/
theorem Stage.turns_of_reset {s : Stage} (hvalid : s.Valid) (hreset : s.move = .reset) :
    s.turns = 1 := by
  obtain ⟨e, now, move, r⟩ := s
  obtain rfl : move = .reset := hreset
  rw [(step_took hvalid).turns_eq (past_reset e), starts_reset]
  rfl

/-- A change of phase, a window that rolls over and a reset are what the start of
a generation is noted for, and nothing else is. -/
theorem Stage.began_mem_iff {s : Stage} (hvalid : s.Valid) (hpast : s.before.Past s.move) :
    Event.began ∈ s.events ↔ s.changes ≠ [] ∨ s.rollsOver = true ∨ s.move = .reset := by
  by_cases hreset : s.move = .reset
  · exact iff_of_true (Stage.began_mem_of_reset hvalid hreset) (.inr (.inr hreset))
  · have hturns : s.turns = if Event.began ∈ s.events then 1 else 0 :=
      (step_took hvalid).turns_eq_ite hpast
    have hcloses : s.resetsClosed = false := by simp [Stage.resetsClosed, hreset]
    have hsome : Event.began ∈ s.events ↔ s.turns ≠ 0 := by
      rw [hturns]
      split <;> simp [*]
    rw [hsome, Stage.turns, hcloses]
    cases s.rollsOver <;> simp [hreset]

/-- The generation goes up by one with every period that begins. -/
theorem Took.generation_eq (h : e.Took now move r) (hpast : e.Past move) :
    r.engine.circuit.generation =
      e.circuit.generation + Stage.turns { before := e, now, move, response := r } := by
  obtain ⟨w, hcircuit⟩ := h.circuit_eq hpast
  rw [h.turns_eq hpast, hcircuit]
  cases e.starts now move with
  | none => rfl
  | some phase => exact (Circuit.circuit_turn_some _ _ _ _).2.1

/-- A move that works on the circuit without starting a period takes nothing
from the totals. -/
theorem Works.grown {c c' : Circuit} (h : e.Works now move c c') (hcapped : c.window.Capped)
    (hsame : c'.generation = c.generation) : c.window.Grown c'.window := by
  cases h with
  | keeps hmove hstale => exact .refl c.window
  | allows hmove hallow =>
    obtain rfl := Circuit.allow_eq_ok hallow
    exact hcapped.grown_arrive
  | @settles t success hending hcurrent =>
    rw [Circuit.settle_eq_turn] at hsame ⊢
    cases hverdict : (c.record success).verdict e.policy success with
    | none => exact hcapped.grown_record success
    | some phase =>
      rw [hverdict, (Circuit.circuit_turn_some _ _ _ _).2.1] at hsame
      exact absurd hsame (Nat.succ_ne_self _)
  | resets hmove =>
    rw [Circuit.reset_eq_turn, (Circuit.circuit_turn_some _ _ _ _).2.1] at hsame
    exact absurd hsame (Nat.succ_ne_self _)

/-- A move that leaves the generation as it is leaves the period as it is. -/
theorem Took.same_period (h : e.Took now move r) (hpast : e.Past move)
    (hcapped : e.circuit.window.Capped)
    (hsame : r.engine.circuit.generation = e.circuit.generation) :
    r.engine.circuit.phase = e.circuit.phase ∧ r.engine.circuit.expiry = e.circuit.expiry ∧
      e.circuit.window.Grown r.engine.circuit.window := by
  have hstarts : e.starts now move = none := by
    have hgeneration := h.generation_eq hpast
    rw [h.turns_eq hpast, hsame] at hgeneration
    cases hstarts : e.starts now move with
    | none => rfl
    | some phase =>
      rw [hstarts] at hgeneration
      simp at hgeneration
  have hlapses : e.lapses now move = none := by
    cases hlapses : e.lapses now move with
    | none => rfl
    | some phase =>
      rw [starts_of_lapses hlapses] at hstarts
      cases hstarts
  obtain ⟨w, hcircuit⟩ := h.circuit_eq hpast
  rw [hstarts, Circuit.turn_none] at hcircuit
  have hworks := h.works
  rw [evaluated_eq_circuit hlapses] at hworks
  refine ⟨by rw [hcircuit]; rfl, by rw [hcircuit]; rfl, hworks.grown hcapped hsame⟩

/-- A circuit that is open once what is due has been applied was open before. -/
theorem evaluated_eq_of_opened (h : (e.evaluated now move).phase = .opened) :
    e.evaluated now move = e.circuit := by
  rw [evaluated_eq_turn] at h ⊢
  cases hlapses : e.lapses now move with
  | none => rfl
  | some phase =>
    rw [hlapses, (Circuit.circuit_turn_some _ _ _ _).1] at h
    subst h
    unfold lapses Circuit.lapse at hlapses
    split at hlapses
    · split at hlapses
      · split at hlapses <;> cases hlapses
      · cases hlapses
    · cases hlapses

end

/-! ## Two points of a life -/

theorem Ledger.Tracks.capped {l : Ledger} {a : Account} (h : l.Tracks a) :
    a.circuit.window.Capped := by
  rw [h.window]
  exact ⟨Nat.min_le_right _ _, Nat.min_le_right _ _, Nat.min_le_right _ _⟩

section

variable {name : String} {policy : Policy} {audience : Audience} {start : Instant}
variable {schedule first rest : List (Instant × Move)} {run later : Run}

theorem generation_new {e : Engine} (h : new? name policy audience start = some e) :
    e.circuit.generation = 0 := by
  unfold new? at h
  obtain ⟨c, hfresh, rfl⟩ := Option.map_eq_some_iff.1 h
  obtain ⟨-, rfl⟩ := Circuit.fresh?_eq_some hfresh
  rfl

/-- The generation is the number of the periods that were started. -/
theorem generation_of_life (hlife : life name policy audience start schedule = some run) :
    run.engine.circuit.generation = (run.stages.map Stage.turns).sum ∧
      ∀ s ∈ run.stages,
        s.response.engine.circuit.generation = s.before.circuit.generation + s.turns := by
  refine (reached_induction (motive := fun run =>
    run.engine.circuit.generation = (run.stages.map Stage.turns).sum ∧
      ∀ s ∈ run.stages, s.response.engine.circuit.generation =
        s.before.circuit.generation + s.turns) ?_ ?_ hlife).2
  · exact fun e hnew => ⟨generation_new hnew, by simp⟩
  · rintro run ⟨e, now, move, r⟩ hreached ⟨htotal, hall⟩ rfl - hvalid
    have took := step_took hvalid
    have hgeneration := took.generation_eq (hreached.past took)
    refine ⟨?_, ?_⟩
    · simp only [Run.snoc, List.map_append, List.map_cons, List.map_nil, List.sum_append,
        List.sum_singleton]
      rw [hgeneration, htotal]
    · simp only [Run.snoc, List.forall_mem_append, List.forall_mem_singleton]
      exact ⟨hall, hgeneration⟩

/-- From one point of a life to a later one the generation does not go down,
and where it is the same there is the same period, with no less in its totals. -/
theorem period_of_life (hlife : life name policy audience start first = some run)
    (hlater : life name policy audience start (first ++ rest) = some later) :
    run.engine.circuit.generation ≤ later.engine.circuit.generation ∧
      (later.engine.circuit.generation = run.engine.circuit.generation →
        later.engine.circuit.phase = run.engine.circuit.phase ∧
          later.engine.circuit.expiry = run.engine.circuit.expiry ∧
          run.engine.circuit.window.Grown later.engine.circuit.window) := by
  induction rest using List.reverseRecOn generalizing later with
  | nil =>
    rw [List.append_nil] at hlater
    cases hlife.symm.trans hlater
    exact ⟨Nat.le_refl _, fun _ => ⟨rfl, rfl, .refl _⟩⟩
  | append_singleton rest entry ih =>
    rw [← List.append_assoc] at hlater
    obtain ⟨mid, r, hmid, hstep, rfl⟩ := life_concat hlater
    obtain ⟨hle, hperiod⟩ := ih hmid
    have hreached := reached_of_life hmid
    have took := step_took hstep
    have hpast := hreached.past took
    have hgeneration := took.generation_eq hpast
    refine ⟨?_, fun hsame => ?_⟩
    · show run.engine.circuit.generation ≤ r.engine.circuit.generation
      omega
    · -- The generation has not gone down on either side of the last move.
      change r.engine.circuit.generation = run.engine.circuit.generation at hsame
      have hsame' : r.engine.circuit.generation = mid.engine.circuit.generation := by omega
      obtain ⟨hphase, hexpiry, hgrown⟩ := hperiod (hsame' ▸ hsame)
      obtain ⟨hphase', hexpiry', hgrown'⟩ :=
        took.same_period hpast hreached.tracks.capped hsame'
      exact ⟨hphase'.trans hphase, hexpiry'.trans hexpiry, hgrown.trans hgrown'⟩

/-! ## Open periods -/

/-- An open circuit has an empty window, and no call in flight is of its
generation. -/
theorem idle_of_opened (hlife : life name policy audience start schedule = some run)
    (hphase : run.engine.circuit.phase = .opened) :
    run.engine.circuit.window = {} ∧
      ∀ t ∈ run.engine.account.inFlight, t.generation ≠ run.engine.circuit.generation := by
  have htracks := (reached_of_life hlife).tracks
  have hcalls : run.ledger.calls = [] := shut_of_life hlife hphase
  have hendings : run.ledger.endings = [] := by
    have hcard := congrArg Multiset.card htracks.finished
    rw [hcalls] at hcard
    simp only [Multiset.coe_nil, Multiset.card_zero, Multiset.card_add, Multiset.coe_card,
      List.length_map] at hcard
    exact List.eq_nil_of_length_eq_zero (by omega)
  refine ⟨?_, fun t ht hcurrent => ?_⟩
  · have hwindow : run.engine.circuit.window = run.ledger.window := htracks.window
    rw [hwindow]
    simp [Ledger.window, Ledger.outcomes, hcalls, hendings, trailing]
  · have hcall := (htracks.current t ht).2 hcurrent
    rw [hcalls] at hcall
    exact List.not_mem_nil hcall

/-- The end of a call is never written into the window of an open circuit. -/
theorem settled_ne_opened (hlife : life name policy audience start schedule = some run)
    {now : Instant} {move : Move} {r : Response} (hstep : run.engine.step now move = some r)
    {t : Ticket} {success : Bool} (hending : run.engine.ending move = some (t, success))
    (hopened : (run.engine.evaluated now move).phase = .opened) :
    t.generation ≠ (run.engine.evaluated now move).generation := by
  have hsame := evaluated_eq_of_opened hopened
  rw [hsame] at hopened ⊢
  exact stale_of_opened hlife hopened (step_took hstep) hending

/-- A generation is one period.  It counts the periods that were started: each
window that rolls over, each change of phase and each reset adds exactly one.
So it never goes down, and at two points with the same generation the phase and
the deadline are the same, and the totals have only grown.

No call in flight is of a generation that has not begun.  An open circuit has
an empty window and no call of its own in flight, so the end of a call is never
counted in it. -/
theorem generation_identifies_period (hlife : life name policy audience start first = some run)
    (hlater : life name policy audience start (first ++ rest) = some later) :
    later.engine.circuit.generation = (later.stages.map Stage.turns).sum ∧
      (∀ s ∈ later.stages,
        s.response.engine.circuit.generation = s.before.circuit.generation + s.turns) ∧
      run.engine.circuit.generation ≤ later.engine.circuit.generation ∧
      (later.engine.circuit.generation = run.engine.circuit.generation →
        later.engine.circuit.phase = run.engine.circuit.phase ∧
          later.engine.circuit.expiry = run.engine.circuit.expiry ∧
          run.engine.circuit.window.Grown later.engine.circuit.window) ∧
      (∀ t ∈ later.engine.account.inFlight,
        t.generation ≤ later.engine.circuit.generation) ∧
      (later.engine.circuit.phase = .opened → later.engine.circuit.window = {} ∧
        ∀ t ∈ later.engine.account.inFlight,
          t.generation ≠ later.engine.circuit.generation) ∧
      ∀ now move r t success, later.engine.step now move = some r →
        later.engine.ending move = some (t, success) →
        (later.engine.evaluated now move).phase = .opened →
        t.generation ≠ (later.engine.evaluated now move).generation := by
  obtain ⟨htotal, hstages⟩ := generation_of_life hlater
  obtain ⟨hle, hperiod⟩ := period_of_life hlife hlater
  refine ⟨htotal, hstages, hle, hperiod, ?_, idle_of_opened hlater, ?_⟩
  · exact (reached_of_life hlater).tracks.past
  · intro now move r t success hstep hending hopened
    exact settled_ne_opened hlater hstep hending hopened

/-- The first call waits while the second one opens the circuit.  When it is
given up, it is of an older generation and not counted. -/
theorem generation_identifies_period_tripped :
    ∃ run ∈ life "db" { minRequests := 2 } .client 0 [(0, .call), (0, .suspend)],
      ∃ later ∈ life "db" { minRequests := 2 } .client 0
          ([(0, .call), (0, .suspend)] ++ [(1, .call), (2, .finish false), (2, .heard)]),
        run.engine.circuit.generation = 0 ∧ later.engine.circuit.generation = 1 ∧
          later.engine.circuit.phase = .opened ∧ later.engine.circuit.window = {} ∧
          (∃ r, later.engine.step 3 (.abandon ⟨0, 0⟩) = some r) ∧
          (later.engine.evaluated 3 (.abandon ⟨0, 0⟩)).generation ≠ 0 := by
  obtain ⟨run, hlife, later, hlater, hrun, hgeneration, hphase, hopened, r, hstep, -⟩ :
      ∃ run ∈ life "db" { minRequests := 2 } .client 0 [(0, .call), (0, .suspend)],
        ∃ later ∈ life "db" { minRequests := 2 } .client 0
            ([(0, .call), (0, .suspend)] ++ [(1, .call), (2, .finish false), (2, .heard)]),
          run.engine.circuit.generation = 0 ∧ later.engine.circuit.generation = 1 ∧
            later.engine.circuit.phase = .opened ∧
            (later.engine.evaluated 3 (.abandon ⟨0, 0⟩)).phase = .opened ∧
            ∃ r ∈ later.engine.step 3 (.abandon ⟨0, 0⟩), True := by
    decide +kernel
  obtain ⟨-, -, -, -, -, hidle, hnever⟩ := generation_identifies_period hlife hlater
  refine ⟨run, hlife, later, hlater, hrun, hgeneration, hphase, (hidle hphase).1, ⟨r, hstep⟩, ?_⟩
  exact (hnever 3 (.abandon ⟨0, 0⟩) r ⟨0, 0⟩ false hstep rfl hopened).symm

end

end Engine

end Breaker
