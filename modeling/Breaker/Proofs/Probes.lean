import Breaker.Proofs.Ledger
import Mathlib.Data.Bool.Count

/-!
# Half-open periods

A half-open period has no end of its own.  It is over when enough probes have
succeeded, when one has failed, or after a reset.  So it must neither let too
many probes through nor run out of them while none is under way.

There are three groups.

* The window.  `Window.Probing` holds of the counters of every half-open
  circuit: no failure yet, and not enough successes.  `Works.probing` says that
  every move keeps it.
* The ledger.  `Ledger.Within` bounds the number of the calls themselves, also
  where the counter cannot tell a full quota from an exceeded one because the
  quota is the cap.
* The run.  `Probed` is the invariant, and `Probed.balance` the equation between
  the quota used, the successes and the calls that have not ended.
  `Probed.exits` says what a move can do in a half-open period, and when it ends
  is read off the two.
-/

namespace Breaker

/-! ## The window of a half-open circuit -/

/-- The counters while probes are admitted: none of them has failed, and not
enough have succeeded. -/
structure Window.Probing (limit : Nat) (w : Window) : Prop where
  failures_eq : w.failures = 0
  failureRun_eq : w.failureRun = 0
  successRun_eq : w.successRun = w.successes
  successes_lt : w.successes < limit
  requests_le : w.requests ≤ limit

namespace Circuit

/-- In a half-open circuit the counters are those of probes. -/
def Probing (policy : Policy) (c : Circuit) : Prop :=
  c.phase = .halfOpen → c.window.Probing policy.probeLimit

section

variable {policy : Policy} {now : Instant} {c : Circuit}

/-- A half-open period begins with all counters at zero. -/
theorem turn_probing (hpos : 0 < policy.probeLimit) (phase : Phase) :
    (c.turn policy now (some phase)).circuit.Probing policy := by
  intro _
  rw [(circuit_turn_some policy now phase c).2.2]
  exact ⟨rfl, rfl, rfl, hpos, Nat.zero_le _⟩

theorem evaluate_probing (hpos : 0 < policy.probeLimit) (h : c.Probing policy) :
    (c.evaluate policy now).circuit.Probing policy := by
  rw [evaluate_eq_turn]
  cases c.lapse now with
  | none => exact h
  | some phase => exact turn_probing hpos phase

/-- A half-open circuit is never due. -/
theorem evaluate_halfOpen (h : c.phase = .halfOpen) : c.evaluate policy now = .done c none := by
  have hdue : c.isDue now = false := by simp [isDue, h]
  rw [evaluate_eq_turn, lapse, if_neg (by simp [hdue]), turn_none]

theorem allow_halfOpen (h : c.phase = .halfOpen) (hroom : c.window.requests < policy.probeLimit) :
    c.allow policy = .ok { c with window := c.window.arrive } := by
  simp only [allow, h]
  rw [if_neg (by omega)]

theorem requests_lt_of_allow {c' : Circuit} (h : c.phase = .halfOpen)
    (hallow : c.allow policy = .ok c') : c.window.requests < policy.probeLimit := by
  simp only [allow, h] at hallow
  split at hallow
  · cases hallow
  · omega

theorem allow_probing {c' : Circuit} (h : c.Probing policy)
    (hallow : c.allow policy = .ok c') : c'.Probing policy := by
  intro hphase
  obtain rfl := allow_eq_ok hallow
  have hroom := requests_lt_of_allow (c := c) hphase hallow
  obtain ⟨hfailures, hfailureRun, hsuccessRun, hsuccesses, -⟩ := h hphase
  refine ⟨hfailures, hfailureRun, hsuccessRun, hsuccesses, ?_⟩
  simp only [Window.arrive, Window.bump]
  omega

theorem verdict_true_halfOpen (h : c.phase = .halfOpen) :
    c.verdict policy true =
      if policy.probeLimit ≤ c.window.successRun then some .closed else none := by
  simp [verdict, h]

theorem verdict_false_halfOpen (h : c.phase = .halfOpen) :
    c.verdict policy false = some .opened := by
  simp [verdict, h]

/-- One success more, without loss at the cap. -/
theorem record_true_probing (hle : policy.probeLimit ≤ Window.cap)
    (h : c.window.Probing policy.probeLimit) :
    (c.record true).window.successes = c.window.successes + 1 ∧
      (c.record true).window.successRun = c.window.successes + 1 := by
  have hrun := h.successRun_eq
  have hlt := h.successes_lt
  simp only [record, Window.record, if_true, Window.succeed, Window.bump]
  omega

/-- A success of a probe closes the circuit when it is the last one needed. -/
theorem settle_true_halfOpen (hle : policy.probeLimit ≤ Window.cap)
    (hphase : c.phase = .halfOpen) (h : c.window.Probing policy.probeLimit) :
    (c.settle policy now true).circuit.phase =
      if c.window.successes + 1 = policy.probeLimit then .closed else .halfOpen := by
  have hlt := h.successes_lt
  rw [settle_eq_turn, verdict_true_halfOpen (c := c.record true) hphase,
    (record_true_probing hle h).2]
  by_cases hlast : c.window.successes + 1 = policy.probeLimit
  · rw [if_pos (Nat.le_of_eq hlast.symm), if_pos hlast, (circuit_turn_some _ _ _ _).1]
  · rw [if_neg (by omega), if_neg hlast, turn_none]
    exact hphase

/-- A failure of a probe opens the circuit. -/
theorem settle_false_halfOpen (hphase : c.phase = .halfOpen) :
    (c.settle policy now false).circuit.phase = .opened := by
  rw [settle_eq_turn, verdict_false_halfOpen (c := c.record false) hphase]
  exact (circuit_turn_some _ _ _ _).1

theorem settle_probing (hpos : 0 < policy.probeLimit) (hle : policy.probeLimit ≤ Window.cap)
    (h : c.Probing policy) (success : Bool) :
    (c.settle policy now success).circuit.Probing policy := by
  rw [settle_eq_turn]
  cases hverdict : (c.record success).verdict policy success with
  | some phase => exact turn_probing hpos phase
  | none =>
    intro hphase
    have hhalf : c.phase = .halfOpen := hphase
    cases success with
    | false =>
      rw [verdict_false_halfOpen (c := c.record false) hhalf] at hverdict
      cases hverdict
    | true =>
      obtain ⟨hsuccesses, hrun⟩ := record_true_probing hle (h hhalf)
      rw [verdict_true_halfOpen (c := c.record true) hhalf, hrun] at hverdict
      have hroom : c.window.successes + 1 < policy.probeLimit := by
        by_contra hfull
        rw [if_pos (by omega)] at hverdict
        cases hverdict
      refine ⟨(h hhalf).failures_eq, rfl, ?_, ?_, (h hhalf).requests_le⟩
      · exact hrun.trans hsuccesses.symm
      · exact Nat.lt_of_le_of_lt (Nat.le_of_eq hsuccesses) hroom

end

end Circuit

namespace Engine

theorem evaluated_probing {e : Engine} (hpos : 0 < e.policy.probeLimit)
    (h : e.circuit.Probing e.policy) (now : Instant) (move : Move) :
    (e.evaluated now move).Probing e.policy := by
  unfold evaluated
  split
  · exact Circuit.evaluate_probing hpos h
  · exact h

theorem Works.probing {e : Engine} {now : Instant} {move : Move} {c c' : Circuit}
    (hworks : e.Works now move c c') (hpos : 0 < e.policy.probeLimit)
    (hle : e.policy.probeLimit ≤ Window.cap) (h : c.Probing e.policy) :
    c'.Probing e.policy := by
  cases hworks with
  | keeps hmove hstale => exact h
  | allows hmove hallow => exact Circuit.allow_probing h hallow
  | settles hending hcurrent => exact Circuit.settle_probing hpos hle h _
  | resets hmove => exact Circuit.turn_probing hpos .closed

/-! ## The quota of a half-open period -/

namespace Ledger

/-- A half-open period has admitted no more calls than its quota. -/
def Within (policy : Policy) (l : Ledger) (a : Account) : Prop :=
  a.circuit.phase = .halfOpen → l.calls.length ≤ policy.probeLimit

section

variable {policy : Policy} {l : Ledger} {a b : Account}

/-- The counter of admitted calls is below the cap where there is room for one
more, so it is their number. -/
theorem Tracks.within_note {event : Event} (hle : policy.probeLimit ≤ Window.cap)
    (htracks : l.Tracks a) (h : l.Within policy a) (hhappens : a.Happens policy event b) :
    (l.note event).Within policy b := by
  intro hphase
  cases hhappens with
  | began hgeneration hwindow => exact Nat.zero_le _
  | admitted hallow =>
    have hroom := Circuit.requests_lt_of_allow (c := a.circuit) hphase hallow
    rw [htracks.window] at hroom
    change min l.calls.length Window.cap < policy.probeLimit at hroom
    rw [Ledger.note, List.length_append, List.length_singleton]
    omega
  | invoked hwaiting =>
    rw [calls_invoked]
    exact h hphase
  | struck hwaiting =>
    rw [calls_struck]
    exact h hphase
  | counted success hrunning hcurrent =>
    rw [calls_ended]
    exact h hphase
  | stale success hrunning hstale =>
    rw [calls_ended]
    exact h hphase

theorem Tracks.within_foldl {events : List Event} (hle : policy.probeLimit ≤ Window.cap)
    (htracks : l.Tracks a) (h : l.Within policy a) (hpasses : a.Passes policy events b) :
    (events.foldl Ledger.note l).Within policy b :=
  htracks.foldl_keeps (fun htracks h head => htracks.within_note hle h head) h hpasses

/-- Where the listener does not panic, no call is struck. -/
theorem struck_foldl {events : List Event} (hevents : ∀ n, Event.struck n ∉ events)
    (h : l.struck = []) : (events.foldl Ledger.note l).struck = [] := by
  induction events generalizing l with
  | nil => exact h
  | cons event events ih =>
    refine ih (fun n hn => hevents n (List.mem_cons_of_mem event hn)) ?_
    cases event with
    | began => rfl
    | admitted n => exact h
    | struck n => exact absurd List.mem_cons_self (hevents n)
    | invoked n =>
      rw [note]
      split <;> exact h
    | ended n success =>
      rw [note]
      split <;> exact h

end

end Ledger

/-- Only a panic of the listener strikes a call. -/
theorem Stage.struck_notMem_events {s : Stage} (h : s.listenerPanics = false) (n : Nat) :
    Event.struck n ∉ s.events := by
  have hdeed : Event.struck n ∉ s.before.deed s.now s.move := by
    unfold deed
    split
    · split <;> simp
    · rename_i hmove hframes
      simp [Stage.listenerPanics, hmove, hframes] at h
    · split <;> simp
  intro hevents
  exact hdeed (s.mem_deed_of_mem_events hevents Event.noConfusion fun _ => Event.noConfusion)

/-! ## Lives -/

/-- What every move keeps. -/
structure Probed (policy : Policy) (run : Run) : Prop where
  policy_eq : run.engine.policy = policy
  proper : run.engine.Proper
  tracks : run.ledger.Tracks run.engine.account
  within : run.ledger.Within policy run.engine.account
  probing : run.engine.circuit.Probing policy
  struck_eq : (∀ s ∈ run.stages, s.listenerPanics = false) → run.ledger.struck = []

section

variable {name : String} {policy : Policy} {audience : Audience} {start : Instant}
variable {schedule : List (Instant × Move)} {run : Run}

theorem probed_new {e : Engine} (h : new? name policy audience start = some e) :
    Probed policy { engine := e } := by
  obtain ⟨-, -, -, hpolicy, hphase, -⟩ := new?_eq_some h
  refine ⟨hpolicy, proper_new h, tracks_new h, fun _ => Nat.zero_le _, ?_, fun _ => rfl⟩
  intro hhalf
  cases hphase.symm.trans hhalf

theorem Probed.snoc {s : Stage} (hsound : policy.Sound name) (h : Probed policy run)
    (hbefore : run.engine = s.before) (hvalid : s.Valid) : Probed policy (run.snoc s) := by
  obtain ⟨hpolicy, hproper, htracks, hwithin, hprobing, hstruck⟩ := h
  rw [hbefore] at hpolicy hproper htracks hwithin hprobing
  subst hpolicy
  have took := step_took hvalid
  have hpasses := htracks.passes hproper hvalid
  have hpos := hsound.probeLimit_pos
  have hle := hsound.probeLimit_le
  refine ⟨took.policy_eq, took.proper hproper, ?_, ?_, ?_, ?_⟩
  · rw [Run.ledger_snoc]
    exact htracks.foldl_note hpasses
  · rw [Run.ledger_snoc]
    exact htracks.within_foldl hle hwithin hpasses
  · exact took.works.probing hpos hle (evaluated_probing hpos hprobing _ _)
  · intro hquiet
    simp only [Run.snoc, List.forall_mem_append, List.forall_mem_singleton] at hquiet
    rw [Run.ledger_snoc]
    exact Ledger.struck_foldl (Stage.struck_notMem_events hquiet.2) (hstruck hquiet.1)

theorem probed_of_life (hsound : policy.Sound name)
    (hlife : life name policy audience start schedule = some run) : Probed policy run :=
  life_induction (motive := Probed policy) (fun _ hnew => probed_new hnew)
    (fun _ _ hprobed hbefore _ hvalid => hprobed.snoc hsound hbefore hvalid) hlife

/-- The quota that is used up is that of the successes and of the calls that
have not ended, and no call has ended badly. -/
theorem Probed.balance (hsound : policy.Sound name) (h : Probed policy run)
    (hphase : run.engine.circuit.phase = .halfOpen) :
    run.engine.circuit.window.requests = run.ledger.calls.length ∧
      run.ledger.calls.length =
        run.engine.circuit.window.successes + run.ledger.unfinished.length ∧
      ∀ success ∈ run.ledger.outcomes, success = true := by
  have hle := hsound.probeLimit_le
  have hcalls : run.ledger.calls.length ≤ policy.probeLimit := h.within hphase
  have hlength := h.tracks.length_calls
  have hwindow : run.engine.circuit.window = run.ledger.window := h.tracks.window
  have hfailures := (h.probing hphase).failures_eq
  rw [hwindow] at hfailures ⊢
  change min (run.ledger.outcomes.count false) Window.cap = 0 at hfailures
  have hnone : run.ledger.outcomes.count false = 0 := by
    simp only [Window.cap] at hfailures
    omega
  have hall : run.ledger.outcomes.count true = run.ledger.endings.length := by
    have hsplit := List.count_true_add_count_false run.ledger.outcomes
    simp only [Ledger.outcomes, List.length_map] at hsplit hnone ⊢
    omega
  refine ⟨?_, ?_, ?_⟩
  · show min run.ledger.calls.length Window.cap = _
    omega
  · show _ = min (run.ledger.outcomes.count true) Window.cap + _
    omega
  · intro success hmem
    cases success with
    | true => rfl
    | false => exact absurd hmem (List.count_eq_zero.1 hnone)

/-! ### The ways out -/

theorem evaluated_halfOpen {e : Engine} (hphase : e.circuit.phase = .halfOpen) (now : Instant)
    (move : Move) : e.evaluated now move = e.circuit := by
  unfold evaluated
  split
  · rw [Circuit.evaluate_halfOpen hphase]
    rfl
  · rfl

variable {now : Instant} {move : Move} {r : Response}

/-- What a move can do in a half-open period: it leaves the period alone,
reports the end of a probe, or is a reset. -/
theorem Probed.exits (h : Probed policy run) (hphase : run.engine.circuit.phase = .halfOpen)
    (hstep : run.engine.step now move = some r) :
    (move ≠ .reset ∧ r.engine.circuit.phase = .halfOpen ∧
        r.engine.circuit.generation = run.engine.circuit.generation ∧
        ∀ t success, run.engine.ending move = some (t, success) → t.serial ∉ run.ledger.calls) ∨
      (∃ t success, run.engine.ending move = some (t, success) ∧
        t.serial ∈ run.ledger.calls ∧ t.serial ∈ run.ledger.unfinished ∧
        r.engine.circuit = (run.engine.circuit.settle policy now success).circuit) ∨
      move = .reset ∧ r.engine.circuit.phase = .closed := by
  have took := step_took hstep
  have hworks := took.works
  rw [evaluated_halfOpen hphase] at hworks
  generalize r.engine.circuit = c at hworks ⊢
  cases hworks with
  | keeps hmove hstale =>
    refine .inl ⟨hmove, hphase, rfl, ?_⟩
    intro t success hending
    have hold : t.generation ≠ run.engine.circuit.generation := by
      rcases hstale t success hending with hne | hlt
      · exact hne
      · omega
    exact mt (h.tracks.current t (took.ending_mem hending)).1 hold
  | allows hmove hallow =>
    obtain rfl := Circuit.allow_eq_ok hallow
    subst hmove
    exact .inl ⟨Move.noConfusion, hphase, rfl, fun t success hending => nomatch hending⟩
  | @settles t success hending hcurrent =>
    have hflight := took.ending_mem hending
    have hunfinished : t.serial ∈ (run.ledger.unfinished : Multiset Nat) := by
      rw [h.tracks.unfinished_eq]
      exact Multiset.mem_add.2 (.inr (mem_numbersOf hflight hcurrent))
    refine .inr (.inl ⟨t, success, hending, ?_, Multiset.mem_coe.1 hunfinished, ?_⟩)
    · exact (h.tracks.current t hflight).2 hcurrent
    · rw [h.policy_eq]
  | resets hmove =>
    refine .inr (.inr ⟨hmove, ?_⟩)
    rw [Circuit.reset_eq_turn]
    exact (Circuit.circuit_turn_some _ _ _ _).1

/-- The quota is used up by successes alone when the last probe under way
succeeds, and not before. -/
theorem Probed.last_iff (hsound : policy.Sound name) (h : Probed policy run)
    (hphase : run.engine.circuit.phase = .halfOpen) {n : Nat}
    (hmem : n ∈ run.ledger.unfinished) :
    run.engine.circuit.window.successes + 1 = policy.probeLimit ↔
      run.ledger.calls.length = policy.probeLimit ∧ run.ledger.unfinished = [n] := by
  have hwithin : run.ledger.calls.length ≤ policy.probeLimit := h.within hphase
  have hpos := List.length_pos_of_mem hmem
  obtain ⟨-, hbalance, -⟩ := h.balance hsound hphase
  constructor
  · intro hlast
    have hone : run.ledger.unfinished.length = 1 := by omega
    obtain ⟨m, hm⟩ := List.length_eq_one_iff.1 hone
    rw [hm, List.mem_singleton] at hmem
    exact ⟨by omega, by rw [hm, hmem]⟩
  · rintro ⟨hfull, hlast⟩
    rw [hlast, List.length_singleton] at hbalance
    omega

/-- The circuit closes at the last success that its quota allows, and after a
reset. -/
theorem Probed.closed_iff (hsound : policy.Sound name) (h : Probed policy run)
    (hphase : run.engine.circuit.phase = .halfOpen)
    (hstep : run.engine.step now move = some r) :
    r.engine.circuit.phase = .closed ↔
      move = .reset ∨
        run.ledger.calls.length = policy.probeLimit ∧
          ∃ t, run.engine.ending move = some (t, true) ∧
            run.ledger.unfinished = [t.serial] := by
  rcases h.exits hphase hstep with ⟨hmove, hstill, -, hstale⟩ |
    ⟨t, success, hending, -, hunfinished, hcircuit⟩ | ⟨rfl, hclosed⟩
  · constructor
    · intro hclosed
      cases hstill.symm.trans hclosed
    · rintro (hreset | ⟨-, t, hending, hlast⟩)
      · exact absurd hreset hmove
      · have hmem : t.serial ∈ run.ledger.unfinished := by simp [hlast]
        exact absurd (List.mem_filter.1 hmem).1 (hstale t true hending)
  · have hmove : move ≠ .reset := by
      rintro rfl
      cases hending
    rw [hcircuit]
    cases success with
    | false =>
      rw [Circuit.settle_false_halfOpen hphase]
      simp [hmove, hending]
    | true =>
      rw [Circuit.settle_true_halfOpen hsound.probeLimit_le hphase (h.probing hphase)]
      simp [hmove, hending, h.last_iff hsound hphase hunfinished]
  · simp [hclosed]

/-- The circuit opens at the first failure of one of its probes. -/
theorem Probed.opened_iff (hsound : policy.Sound name) (h : Probed policy run)
    (hphase : run.engine.circuit.phase = .halfOpen)
    (hstep : run.engine.step now move = some r) :
    r.engine.circuit.phase = .opened ↔
      ∃ t, run.engine.ending move = some (t, false) ∧ t.serial ∈ run.ledger.calls := by
  rcases h.exits hphase hstep with ⟨-, hstill, -, hstale⟩ |
    ⟨t, success, hending, hcall, -, hcircuit⟩ | ⟨rfl, hclosed⟩
  · constructor
    · intro hopened
      cases hstill.symm.trans hopened
    · rintro ⟨t, hending, hcall⟩
      exact absurd hcall (hstale t false hending)
  · rw [hcircuit]
    cases success with
    | false =>
      rw [Circuit.settle_false_halfOpen hphase]
      simp [hending, hcall]
    | true =>
      rw [Circuit.settle_true_halfOpen hsound.probeLimit_le hphase (h.probing hphase)]
      constructor
      · intro hopened
        split at hopened <;> cases hopened
      · rintro ⟨t', hending', -⟩
        cases hending.symm.trans hending'
  · constructor
    · intro hopened
      cases hclosed.symm.trans hopened
    · rintro ⟨t, hending, -⟩
      cases hending

/-- A period that is still half open is the same one. -/
theorem Probed.generation_eq (h : Probed policy run)
    (hphase : run.engine.circuit.phase = .halfOpen) (hstep : run.engine.step now move = some r)
    (hstill : r.engine.circuit.phase = .halfOpen) :
    r.engine.circuit.generation = run.engine.circuit.generation := by
  rcases h.exits hphase hstep with ⟨-, -, hsame, -⟩ | ⟨t, success, -, -, -, hcircuit⟩ |
    ⟨-, hclosed⟩
  · exact hsame
  · rw [hcircuit, Circuit.settle_eq_turn] at hstill ⊢
    cases hverdict : (run.engine.circuit.record success).verdict policy success with
    | none => rfl
    | some phase =>
      rw [hverdict, (Circuit.circuit_turn_some _ _ _ _).1] at hstill
      subst hstill
      cases success <;> simp [Circuit.verdict, Circuit.record, hphase] at hverdict
  · cases hclosed.symm.trans hstill

/-- Where no probe is under way there is room for one. -/
theorem Probed.admits_call (hsound : policy.Sound name) (h : Probed policy run)
    (hphase : run.engine.circuit.phase = .halfOpen) (hidle : run.ledger.unfinished = [])
    (now : Instant) :
    ∃ r, run.engine.step now .call = some r ∧
      (r.reply = .operating ⟨run.engine.nextSerial, run.engine.circuit.generation⟩ ∨
        ∃ t, r.engine.frames =
          .listening t (.operate ⟨run.engine.nextSerial, run.engine.circuit.generation⟩) ::
            run.engine.frames) := by
  obtain ⟨hrequests, hbalance, -⟩ := h.balance hsound hphase
  have hlt := (h.probing hphase).successes_lt
  rw [hidle, List.length_nil] at hbalance
  have hroom : run.engine.circuit.window.requests < run.engine.policy.probeLimit := by
    rw [h.policy_eq]
    omega
  refine ⟨_, rfl, ?_⟩
  unfold call
  rw [Circuit.evaluate_halfOpen hphase]
  simp only
  have hallow := Circuit.allow_halfOpen hphase hroom
  rw [show (run.engine.accept run.engine.circuit none).policy = run.engine.policy from rfl, hallow]
  simp only
  rcases deliver_cases _ _ _ with ⟨t, rest, -, heq⟩ | ⟨-, heq⟩
  · rw [heq]
    exact .inr ⟨t, rfl⟩
  · rw [heq]
    exact .inl rfl

/-- In every half-open state that a breaker can reach, the probes are
accounted for: none has failed, and the quota that is used up is that of the
successes and of the probes that have not ended.  The ledger bounds the number
of the calls themselves, also where the quota is the cap.  Therefore

* the circuit closes at a reset, or when the whole quota has been admitted and
  the one probe that has not ended succeeds;
* it opens at the first failure of one of its probes;
* nothing else ends the period;
* a call is let through when no probe is under way.

As long as the listener has not panicked, the calls that have not ended are
those of this generation in flight. -/
theorem probes_of_halfOpen (hsound : policy.Sound name)
    (hlife : life name policy audience start schedule = some run)
    (hphase : run.engine.circuit.phase = .halfOpen) :
    (run.engine.circuit.window.Probing policy.probeLimit ∧
      run.engine.circuit.window.requests =
        run.engine.circuit.window.successes + run.ledger.unfinished.length ∧
      run.ledger.calls.length ≤ policy.probeLimit ∧
      ∀ success ∈ run.ledger.outcomes, success = true) ∧
    ((∀ s ∈ run.stages, s.listenerPanics = false) →
      (run.ledger.unfinished : Multiset Nat) =
        numbersOf run.engine.circuit.generation run.engine.account.inFlight) ∧
    (∀ now move r, run.engine.step now move = some r →
      (r.engine.circuit.phase = .closed ↔
        move = .reset ∨
          run.ledger.calls.length = policy.probeLimit ∧
            ∃ t, run.engine.ending move = some (t, true) ∧
              run.ledger.unfinished = [t.serial]) ∧
      (r.engine.circuit.phase = .opened ↔
        ∃ t, run.engine.ending move = some (t, false) ∧ t.serial ∈ run.ledger.calls) ∧
      (r.engine.circuit.phase = .halfOpen →
        r.engine.circuit.generation = run.engine.circuit.generation)) ∧
    (run.ledger.unfinished = [] → ∀ now, ∃ r, run.engine.step now .call = some r ∧
      (r.reply = .operating ⟨run.engine.nextSerial, run.engine.circuit.generation⟩ ∨
        ∃ t, r.engine.frames =
          .listening t (.operate ⟨run.engine.nextSerial, run.engine.circuit.generation⟩) ::
            run.engine.frames)) := by
  have hprobed := probed_of_life hsound hlife
  obtain ⟨hrequests, hbalance, hall⟩ := hprobed.balance hsound hphase
  refine ⟨⟨hprobed.probing hphase, ?_, hprobed.within hphase, hall⟩, ?_, ?_, ?_⟩
  · rw [hrequests, hbalance]
  · intro hquiet
    rw [hprobed.tracks.unfinished_eq, hprobed.struck_eq hquiet, Multiset.coe_nil, zero_add]
    rfl
  · intro now move r hstep
    exact ⟨hprobed.closed_iff hsound hphase hstep, hprobed.opened_iff hsound hphase hstep,
      hprobed.generation_eq hphase hstep⟩
  · exact fun hidle now => hprobed.admits_call hsound hphase hidle now

/-- Two probes overlap: the second has succeeded, and the first, which was
suspended meanwhile, closes the circuit. -/
theorem probes_of_halfOpen_overlapping :
    Policy.Sound "db" { probeLimit := 2, openDuration := 0, minRequests := 1 } ∧
      ∃ run ∈ life "db" { probeLimit := 2, openDuration := 0, minRequests := 1 } .client 0
          [(0, .call), (0, .finish false), (0, .heard), (1, .call), (1, .heard), (2, .suspend),
            (3, .call), (4, .finish true), (5, .resume ⟨1, 2⟩)],
        run.engine.circuit.phase = .halfOpen ∧
          run.engine.circuit.window.requests =
            run.engine.circuit.window.successes + run.ledger.unfinished.length ∧
          run.ledger.unfinished = [1] ∧
          ∃ r ∈ run.engine.step 6 (.finish true), r.engine.circuit.phase = .closed := by
  have hsound : Policy.Sound "db" { probeLimit := 2, openDuration := 0, minRequests := 1 } :=
    ⟨by decide +kernel, by decide, by decide⟩
  obtain ⟨run, hlife, hphase, hcalls, hunfinished, hending, r, hstep, -⟩ :
      ∃ run ∈ life "db" { probeLimit := 2, openDuration := 0, minRequests := 1 } .client 0
          [(0, .call), (0, .finish false), (0, .heard), (1, .call), (1, .heard), (2, .suspend),
            (3, .call), (4, .finish true), (5, .resume ⟨1, 2⟩)],
        run.engine.circuit.phase = .halfOpen ∧ run.ledger.calls.length = 2 ∧
          run.ledger.unfinished = [1] ∧
          run.engine.ending (.finish true) = some (⟨1, 2⟩, true) ∧
          ∃ r ∈ run.engine.step 6 (.finish true), True := by
    decide +kernel
  obtain ⟨⟨-, hbalance, -, -⟩, -, hexits, -⟩ := probes_of_halfOpen hsound hlife hphase
  refine ⟨hsound, run, hlife, hphase, hbalance, hunfinished, r, hstep, ?_⟩
  exact (hexits 6 (.finish true) r hstep).1.2 (.inr ⟨hcalls, ⟨1, 2⟩, hending, hunfinished⟩)

end

end Engine

end Breaker
