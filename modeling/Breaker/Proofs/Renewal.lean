import Breaker.Engine.Quiet
import Breaker.Proofs.Alongside
import Breaker.Proofs.Period

/-!
# A reset makes a new breaker

A breaker that is reset goes on as a breaker that is built at that instant,
whatever has happened to it before and whatever calls are still in flight.
Nothing of the past is left but two numbers, by which its tickets and its
generations are ahead of those of the new breaker, and the old calls.  An old
call is of a generation that is over, so that its end is a query to the new
breaker, and how it waits is nothing.

* `stepQuiet_reset`: what the reset does;
* `twins_of_reset`: what it leaves, beside a new breaker;
* `follow_of_run`: whatever the old breaker does, the new one can follow;
* `reset_eq_new`: the two cannot be told apart.
-/

namespace Breaker

/-- Is the reply the view that a query shows? -/
def Reply.isView : Reply → Bool
  | .view _ => true
  | _ => false

namespace Engine

/-- The transitions that a journal says were handed to the listener. -/
def tellings (journal : List Entry) : List Transition :=
  journal.filterMap fun
    | .told t => some t
    | _ => none

/-- A breaker that was reset beside a new one: what it had before the reset is
hidden, and older by the numbers that it had reached. -/
def Contrast.renewed (e : Engine) : Contrast where
  offset := { serials := e.nextSerial, generations := e.circuit.generation + 1 }
  hidden t := decide (t.generation ≤ e.circuit.generation)
  answers := Reply.isView
  answers_told reply h := by cases reply <;> first | rfl | cases h

/-- An old call ends, and the new breaker is asked for its phase. -/
def Stage.EndsOld (hidden : Ticket → Bool) (s s' : Stage) : Prop :=
  ∃ t ∈ s.endedCall?, hidden t = true ∧ s'.move = .query

variable {e e' : Engine} {now : Instant}

/-! ## The reset -/

/-- The circuit that a reset makes. -/
theorem reset_eq_done {c : Circuit} {policy : Policy} (hfits : policy.Fits now) :
    c.reset policy now =
      .done { phase := .closed, generation := c.generation + 1, window := {},
              expiry := some (now + policy.closedWindow) } (c.phase.change .closed) := by
  simp [Circuit.reset_eq_turn, Circuit.turn, Circuit.startPeriod, Policy.period,
    Clock.deadline?_eq_some hfits.1]

theorem new?_of_fits (name : String) {policy : Policy} (audience : Audience)
    (hfits : policy.Fits now) :
    new? name policy audience now =
      some { name, policy, audience,
             circuit := { phase := .closed, generation := 0, window := {},
                          expiry := some (now + policy.closedWindow) } } := by
  simp [new?, Circuit.fresh?, Clock.deadline?_eq_some hfits.1]

/-- With nothing to deliver before, a reset tells the listener of its own
change, if it makes one, and leaves the rest of the breaker as it is. -/
theorem stepQuiet_reset (hfits : e.policy.Fits now) (hmailbox : e.mailbox = {}) :
    ∃ r, e.stepQuiet now .reset = some r ∧ r.reply = .wasReset ∧
      tellings r.journal = (e.circuit.phase.change .closed).toList ∧
      r.engine =
        { e with
          circuit := { phase := .closed, generation := e.circuit.generation + 1, window := {},
                       expiry := some (now + e.policy.closedWindow) } } := by
  cases hchange : e.circuit.phase.change .closed with
  | none =>
    refine ⟨_, rfl, ?_⟩
    simp [Engine.reset, reset_eq_done hfits, hchange, accept, noted, deliver, hmailbox,
      Mailbox.push, Courier.dispatch_nil, follow, conclude, Response.settleQuiet, tellings]
  | some t =>
    -- The listener is called once, and returns.
    refine ⟨_, rfl, ?_⟩
    simp [Engine.reset, reset_eq_done hfits, hchange, accept, noted, deliver, hmailbox,
      Mailbox.push, Courier.dispatch_cons, follow, conclude, Response.settleQuiet, tellings, step,
      Courier.proceed_nil]

/-! ## Beside a new breaker -/

theorem concerns_eq_false {hidden : Ticket → Bool} (h : ∀ t, hidden t = false) (move : Move) :
    e.concerns hidden move = false := by
  unfold concerns
  cases e.subject move with
  | none => rfl
  | some t => exact h t

theorem hiddenBeside_renewed (e : Engine) (t : Ticket) :
    (Contrast.renewed e).hiddenBeside t = false := by
  simp only [Contrast.hiddenBeside, Contrast.renewed, Ticket.after, decide_eq_false_iff_not]
  omega

/-- An engine without an invocation of the listener, all of whose calls are of
generations that have begun, shows nothing of its past. -/
theorem filter_shows_renewed (houtside : listeners e.frames = 0)
    (hpast : ∀ t ∈ e.account.inFlight, t.generation ≤ e.circuit.generation) :
    e.frames.filter (shows (Contrast.renewed e).hidden) = [] ∧
      (e.suspended.filter fun t => !(Contrast.renewed e).hidden t) = [] := by
  simp only [account, Account.inFlight, Multiset.mem_add, Multiset.mem_coe] at hpast
  refine ⟨?_, ?_⟩
  · rw [List.filter_eq_nil_iff]
    intro f hf
    cases f with
    | listening t sequel =>
      have hnot := List.countP_eq_zero.1 houtside _ hf
      simp [isListening] at hnot
    | operating t =>
      have hrunning : t ∈ runningIn e.frames := by
        simp only [runningIn, Multiset.mem_coe, List.mem_filterMap]
        exact ⟨_, hf, rfl⟩
      simp [shows, Contrast.renewed, hpast t (.inr (.inl hrunning))]
  · rw [List.filter_eq_nil_iff]
    intro t ht
    simp [Contrast.renewed, hpast t (.inr (.inr ht))]

/-- After the reset, the breaker is a twin of a new one. -/
theorem twins_of_reset {name : String} {audience : Audience} {f : Engine}
    (hfits : e.policy.Fits now) (hmailbox : e.mailbox = {}) (houtside : listeners e.frames = 0)
    (hpast : ∀ t ∈ e.account.inFlight, t.generation ≤ e.circuit.generation)
    (hnew : new? name e.policy audience now = some f) :
    (Contrast.renewed e).Twins
      { e with
        circuit := { phase := .closed, generation := e.circuit.generation + 1, window := {},
                     expiry := some (now + e.policy.closedWindow) } } f := by
  rw [new?_of_fits name audience hfits] at hnew
  cases hnew
  obtain ⟨hframes, hsuspended⟩ := filter_shows_renewed houtside hpast
  exact
    { policy_eq := rfl
      circuit_eq := by simp [Circuit.later, Contrast.renewed]
      mailbox_eq := hmailbox
      serial_eq := (Nat.zero_add _).symm
      frames := by
        rw [hframes]
        exact .nil
      suspended_eq := hsuspended }

/-! ## What the new breaker does meanwhile -/

/-- A move that is about a hidden call, and does not make it wait, ends it. -/
theorem ending_of_concerns {hidden : Ticket → Bool} {move : Move} {r : Response}
    (hstep : e.step now move = some r) (hpauses : pauses move = false)
    (hconcerns : e.concerns hidden move = true) :
    ∃ t success, e.ending move = some (t, success) ∧ hidden t = true := by
  cases move with
  | abandon t => exact ⟨t, false, rfl, hconcerns⟩
  | finish success =>
    simp only [step] at hstep
    split at hstep
    · rename_i t frames hframes
      rw [concerns_of_top rfl hframes] at hconcerns
      exact ⟨t, success, by simp [ending, hframes], hconcerns⟩
    · cases hstep
  | heard =>
    simp only [step] at hstep
    split at hstep
    · rename_i t sequel frames hframes
      simp [concerns, subject, hframes] at hconcerns
    · cases hstep
  | panic text =>
    simp only [step] at hstep
    split at hstep
    · rename_i t frames hframes
      rw [concerns_of_top rfl hframes] at hconcerns
      exact ⟨t, false, by simp [ending, hframes], hconcerns⟩
    · rename_i t sequel frames hframes
      simp [concerns, subject, hframes] at hconcerns
    · cases hstep
  | suspend => cases hpauses
  | resume t => cases hpauses
  | _ => cases hconcerns

namespace Contrast

variable {κ : Contrast}

/-- A move that is about no hidden call is one that the second breaker knows. -/
theorem Twins.exists_move (h : κ.Twins e e') {move : Move} {r : Response}
    (hstep : e.step now move = some r) (hconcerns : e.concerns κ.hidden move = false) :
    ∃ move', move = Move.after κ.offset move' := by
  have hknown : ∀ t ∈ e.suspended, κ.hidden t = false → ∃ t', t = Ticket.after κ.offset t' := by
    intro t ht hshared
    have hmem : t ∈ e.suspended.filter fun t => !κ.hidden t := by simp [ht, hshared]
    rw [h.suspended_eq] at hmem
    obtain ⟨t', -, rfl⟩ := List.mem_map.1 hmem
    exact ⟨t', rfl⟩
  cases move with
  | resume t =>
    simp only [Engine.step] at hstep
    split at hstep
    · obtain ⟨t', rfl⟩ := hknown t (by assumption) hconcerns
      exact ⟨.resume t', rfl⟩
    · cases hstep
  | abandon t =>
    simp only [Engine.step] at hstep
    split at hstep
    · obtain ⟨t', rfl⟩ := hknown t (by assumption) hconcerns
      exact ⟨.abandon t', rfl⟩
    · cases hstep
  | query => exact ⟨.query, rfl⟩
  | reset => exact ⟨.reset, rfl⟩
  | call => exact ⟨.call, rfl⟩
  | suspend => exact ⟨.suspend, rfl⟩
  | finish success => exact ⟨.finish success, rfl⟩
  | heard => exact ⟨.heard, rfl⟩
  | panic text => exact ⟨.panic text, rfl⟩

end Contrast

/-- What is due never takes a generation back. -/
theorem le_evaluated (e : Engine) (now : Instant) (move : Move) :
    e.circuit.generation ≤ (e.evaluated now move).generation := by
  rw [evaluated_eq_turn]
  cases e.lapses now move with
  | none => exact Nat.le_refl _
  | some phase =>
    rw [(Circuit.circuit_turn_some _ _ _ _).2.1]
    exact Nat.le_succ _

/-- The end of an old call is a query to the new breaker. -/
theorem keeps_endsOld (old : Engine) :
    (Contrast.renewed old).Keeps (Stage.EndsOld (Contrast.renewed old).hidden) := by
  rintro s s' hvalid hvalid' hnow hfits ⟨t, hended, hhidden, hmove⟩ htwins
  obtain ⟨⟨t, success⟩, hending, rfl⟩ := Option.map_eq_some_iff.1 hended
  obtain ⟨e₁, sequel, hends⟩ := ends_of_ending hvalid hending
  have hstale : t.generation ≠ (s.before.evaluated s.now s.move).generation := by
    have hevaluated := le_evaluated s.before s.now s.move
    have hahead : s.before.circuit.generation =
        s'.before.circuit.generation + (old.circuit.generation + 1) := by
      rw [htwins.circuit_eq]
      rfl
    simp only [Contrast.renewed, decide_eq_true_eq] at hhidden
    omega
  have hstep := htwins.ends_query hends hhidden hstale (fun _ => rfl) (hnow ▸ hfits)
  rw [← hmove, hvalid, hnow, hvalid'] at hstep
  cases hstep
  assumption

/-- A run of the reset breaker and a run of a new one that nobody can tell apart.
They make the same moves at the same instants, but for the old calls, whose
ends are queries to the new breaker.  After every stage they have the same
phase, counters and deadline, and a generation that differs by a constant; they
have the same mailbox, have told the listener the same, and have replied the
same. -/
structure Beside (old : Engine) (run run' : Run) : Prop where
  alongside : (Contrast.renewed old).Alongside (Stage.EndsOld (Contrast.renewed old).hidden) run run'
  same : (Contrast.renewed old).Match run run'

section

variable {old : Engine} {run run' : Run} {s : Stage} {schedule : List (Instant × Move)}

theorem waits_renewed (s' : Stage) : s'.waits (Contrast.renewed old).hiddenBeside = false := by
  rw [Stage.waits, concerns_eq_false (hiddenBeside_renewed old), Bool.and_false]

/-- When an old call waits, the new breaker does nothing. -/
theorem Beside.idle (h : Beside old run run') (hbefore : run.engine = s.before)
    (hvalid : s.Valid) (hwaits : s.waits (Contrast.renewed old).hidden = true) :
    Beside old (run.snoc s) run' :=
  ⟨h.alongside.left hwaits, h.same.left hbefore hvalid hwaits⟩

/-- When an old call ends, the new breaker is asked for its phase. -/
theorem Beside.query (h : Beside old run run') (hbefore : run.engine = s.before)
    (hvalid : s.Valid) (hfits : run'.engine.policy.Fits s.now) (hpauses : pauses s.move = false)
    (hconcerns : s.before.concerns (Contrast.renewed old).hidden s.move = true) :
    Beside old (run.snoc s) (run'.snoc
      { before := run'.engine, now := s.now, move := .query,
        response := run'.engine.query s.now }) := by
  have hwaits : s.waits (Contrast.renewed old).hidden = false := by simp [Stage.waits, hpauses]
  obtain ⟨t, success, hending, hhidden⟩ := ending_of_concerns hvalid hpauses hconcerns
  have hends : Stage.EndsOld (Contrast.renewed old).hidden s
      { before := run'.engine, now := s.now, move := .query, response := run'.engine.query s.now } :=
    ⟨t, Option.map_eq_some_iff.2 ⟨_, hending, rfl⟩, hhidden, rfl⟩
  refine ⟨h.alongside.both hwaits (waits_renewed _) rfl (.inr hends), ?_⟩
  refine h.same.both hwaits (waits_renewed _) ?_
  exact keeps_endsOld old s _ hvalid rfl rfl hfits hends (hbefore ▸ h.same.twins)

/-- Every other move is one that the new breaker can make. -/
theorem Beside.share (h : Beside old run run') (hbefore : run.engine = s.before)
    (hvalid : s.Valid) (hquiet : s.listenerPanics = false)
    (hconcerns : s.before.concerns (Contrast.renewed old).hidden s.move = false) :
    ∃ move' r', run'.engine.step s.now move' = some r' ∧ run'.engine.strikes move' = false ∧
      Beside old (run.snoc s)
        (run'.snoc { before := run'.engine, now := s.now, move := move', response := r' }) := by
  have htwins : (Contrast.renewed old).Twins s.before run'.engine := hbefore ▸ h.same.twins
  have hwaits : s.waits (Contrast.renewed old).hidden = false := by simp [Stage.waits, hconcerns]
  obtain ⟨move', hmove⟩ := htwins.exists_move hvalid hconcerns
  have hleft := hconcerns
  rw [hmove] at hleft
  have hright := concerns_eq_false (e := run'.engine) (hiddenBeside_renewed old) move'
  rw [Stage.listenerPanics_eq, hmove] at hquiet
  have hstep := htwins.step s.now hleft hright hquiet
  rw [← hmove, hvalid] at hstep
  cases hnext : run'.engine.step s.now move' with
  | none =>
    rw [hnext] at hstep
    cases hstep
  | some r' =>
    rw [hnext] at hstep
    have hresponses : (Contrast.renewed old).Responses s.response r' := by
      cases hstep
      assumption
    refine ⟨move', r', hnext, htwins.strikes_eq hleft hright ▸ hquiet, ?_, ?_⟩
    · exact h.alongside.both hwaits (waits_renewed _) rfl (.inl ⟨hmove, hconcerns, hright⟩)
    · exact h.same.both hwaits (waits_renewed _) hresponses

/-- Whatever the old breaker does, the new one can follow. -/
theorem follow_of_run (htwins : (Contrast.renewed old).Twins e e')
    (hrun : e.run schedule = some run) (hfits : ∀ entry ∈ schedule, e'.policy.Fits entry.1)
    (hquiet : ∀ s ∈ run.stages, s.listenerPanics = false) :
    ∃ schedule' run', e'.run schedule' = some run' ∧
      (∀ entry ∈ schedule', e'.policy.Fits entry.1) ∧
      (∀ s ∈ run'.stages, s.listenerPanics = false) ∧ Beside old run run' := by
  refine run_induction (motive := fun run => (∀ s ∈ run.stages, s.listenerPanics = false) →
    ∃ schedule' run', e'.run schedule' = some run' ∧
      (∀ entry ∈ schedule', e'.policy.Fits entry.1) ∧
      (∀ s ∈ run'.stages, s.listenerPanics = false) ∧ Beside old run run') ?_ ?_ hrun hquiet
  · exact fun _ => ⟨[], _, rfl, by simp, by simp, .nil, .nil htwins⟩
  · intro run s ih hbefore hentry hvalid hquiet
    simp only [Run.snoc, List.forall_mem_append, List.forall_mem_singleton] at hquiet
    obtain ⟨schedule', run', hrun', hfits', hquiet', hbeside⟩ := ih hquiet.1
    have hfits_now : e'.policy.Fits s.now := hfits _ hentry
    -- A move of the new breaker at the same instant extends its run.
    have hextend : ∀ {move' r'}, run'.engine.step s.now move' = some r' →
        run'.engine.strikes move' = false →
        Beside old (run.snoc s)
          (run'.snoc { before := run'.engine, now := s.now, move := move', response := r' }) →
        ∃ schedule' run', e'.run schedule' = some run' ∧
          (∀ entry ∈ schedule', e'.policy.Fits entry.1) ∧
          (∀ s ∈ run'.stages, s.listenerPanics = false) ∧ Beside old (run.snoc s) run' := by
      intro move' r' hstep hstrikes hnext
      refine ⟨_, _, run_snoc hrun' hstep, ?_, ?_, hnext⟩
      · simp only [List.forall_mem_append, List.forall_mem_singleton]
        exact ⟨hfits', hfits_now⟩
      · simp only [Run.snoc, List.forall_mem_append, List.forall_mem_singleton]
        exact ⟨hquiet', (Stage.listenerPanics_eq _).trans hstrikes⟩
    cases hconcerns : s.before.concerns (Contrast.renewed old).hidden s.move with
    | false =>
      obtain ⟨move', r', hstep, hstrikes, hnext⟩ :=
        hbeside.share hbefore hvalid hquiet.2 hconcerns
      exact hextend hstep hstrikes hnext
    | true =>
      cases hpauses : pauses s.move with
      | true =>
        have hwaits : s.waits (Contrast.renewed old).hidden = true := by
          simp [Stage.waits, hconcerns, hpauses]
        exact ⟨schedule', run', hrun', hfits', hquiet', hbeside.idle hbefore hvalid hwaits⟩
      | false =>
        have hfits₁ : run'.engine.policy.Fits s.now := (policy_of_run hrun').1 ▸ hfits_now
        exact hextend rfl rfl (hbeside.query hbefore hvalid hfits₁ hpauses hconcerns)

end

/-- What a run of the reset breaker and a run of the new one have in common. -/
structure Renews (old : Engine) (run run' : Run) : Prop extends Beside old run run' where
  own : run.AnswersOwn
  own' : run'.AnswersOwn
  /-- Either can make a further move if the other can, and they reply alike. -/
  next : ∀ now move,
    run.engine.concerns (Contrast.renewed old).hidden
      (move.after (Contrast.renewed old).offset) = false →
    run.engine.strikes (move.after (Contrast.renewed old).offset) = false →
    Option.Rel (Contrast.renewed old).Responses
      (run.engine.step now (move.after (Contrast.renewed old).offset)) (run'.engine.step now move)

/-- A reset breaker is a new one.  Take any life at any point outside the
listener, whatever calls are in flight.  The reset tells the listener of the
change from the stored phase to closed, if it is a change, and of nothing else.
From its return on, whatever clients and listener do with the breaker, one that
is built at the instant of the reset can follow, and nobody can tell the two
apart, but that the end of a call of the time before is answered with its
outcome by the old breaker, where the new one is asked for its phase. -/
theorem reset_eq_new {name : String} {policy : Policy} {audience : Audience} {start : Instant}
    {schedule : List (Instant × Move)} {run : Run}
    (hlife : life name policy audience start schedule = some run)
    (hfits : ∀ entry ∈ schedule, policy.Fits entry.1)
    (hquiet : ∀ s ∈ run.stages, s.listenerPanics = false)
    (houtside : listeners run.engine.frames = 0) (hnow : policy.Fits now) :
    ∃ r f, run.engine.stepQuiet now .reset = some r ∧ new? name policy audience now = some f ∧
      r.reply = .wasReset ∧
      tellings r.journal = (run.engine.circuit.phase.change .closed).toList ∧
      ∀ later after, r.engine.run later = some after → (∀ entry ∈ later, policy.Fits entry.1) →
        (∀ s ∈ after.stages, s.listenerPanics = false) →
        ∃ later' after', f.run later' = some after' ∧ Renews run.engine after after' := by
  have horderly := orderly_of_life hlife hfits
  have hpolicy : run.engine.policy = policy := horderly.policy_eq
  have hmailbox : run.engine.mailbox = {} := by
    have hfree : run.engine.mailbox.held = false := by
      have htended := horderly.tended
      rw [Tended, houtside] at htended
      exact Bool.toNat_eq_zero.1 htended.symm
    have hnothing := noLeftovers_of_life hlife hfits hquiet hfree
    cases hbox : run.engine.mailbox
    simp_all
  subst hpolicy
  have hpast := (reached_of_life hlife).tracks.past
  obtain ⟨r, hreset, hreply, htold, hengine⟩ := stepQuiet_reset hnow hmailbox
  have hnew := new?_of_fits name audience hnow
  have htwins := twins_of_reset hnow hmailbox houtside hpast hnew
  rw [← hengine] at htwins
  refine ⟨r, _, hreset, hnew, hreply, htold, ?_⟩
  intro later after hafter hfits₁ hquiet₁
  obtain ⟨later', after', hrun', hfits₂, hquiet₂, hbeside⟩ :=
    follow_of_run htwins hafter hfits₁ hquiet₁
  have hpolicy : r.engine.policy = run.engine.policy := by rw [hengine]
  refine ⟨later', after', hrun', hbeside, ?_, ?_, ?_⟩
  · exact answersOwn_of_run hafter (fits_of_run hafter (hpolicy ▸ hfits₁)) hquiet₁
  · exact answersOwn_of_run hrun' (fits_of_run hrun' hfits₂) hquiet₂
  · intro now move hconcerns hstrikes
    exact hbeside.same.step now move hconcerns
      (concerns_eq_false (hiddenBeside_renewed run.engine) move) hstrikes

/-- A half-open circuit is reset while a probe waits, and a call of the first
period.  Afterwards both end, one given up and one completed, and the first new
call opens the circuit: in the fourth generation, which is the first of a new
breaker. -/
theorem reset_eq_new_halfOpen :
    ∃ run ∈ life "db" { minRequests := 1, openDuration := 10 } .client 0
        [(0, .call), (0, .suspend), (1, .call), (2, .finish false), (2, .heard), (12, .call),
          (12, .heard), (12, .suspend)],
      ∃ r ∈ run.engine.stepQuiet 15 .reset,
        tellings r.journal = [{ source := .halfOpen, target := .closed }] ∧
        ∃ f ∈ new? "db" { minRequests := 1, openDuration := 10 } .client 15,
          ∃ after ∈ r.engine.run
              [(16, .call), (16, .suspend), (17, .abandon ⟨2, 2⟩), (18, .resume ⟨0, 0⟩),
                (18, .finish true), (19, .resume ⟨3, 3⟩), (19, .finish false), (19, .heard)],
            after.engine.circuit.phase = .opened ∧ after.engine.circuit.generation = 4 ∧
            ∃ later' after', f.run later' = some after' ∧ Renews run.engine after after' ∧
              after'.engine.circuit.generation = 1 := by
  obtain ⟨run, hlife, hquiet, houtside, hbefore, hphase, r, hreset, after, hafter, hsilent,
      hopened, hgeneration⟩ :
      ∃ run ∈ life "db" { minRequests := 1, openDuration := 10 } .client 0
          [(0, .call), (0, .suspend), (1, .call), (2, .finish false), (2, .heard), (12, .call),
            (12, .heard), (12, .suspend)],
        (∀ s ∈ run.stages, s.listenerPanics = false) ∧ listeners run.engine.frames = 0 ∧
          run.engine.circuit.generation = 2 ∧ run.engine.circuit.phase = .halfOpen ∧
          ∃ r ∈ run.engine.stepQuiet 15 .reset,
            ∃ after ∈ r.engine.run
                [(16, .call), (16, .suspend), (17, .abandon ⟨2, 2⟩), (18, .resume ⟨0, 0⟩),
                  (18, .finish true), (19, .resume ⟨3, 3⟩), (19, .finish false), (19, .heard)],
              (∀ s ∈ after.stages, s.listenerPanics = false) ∧
                after.engine.circuit.phase = .opened ∧ after.engine.circuit.generation = 4 := by
    decide +kernel
  have hnow : ({ minRequests := 1, openDuration := 10 } : Policy).Fits 15 := by decide +kernel
  obtain ⟨r', f, hreset', hnew, -, htold, hfollow⟩ :=
    reset_eq_new hlife (by decide +kernel) hquiet houtside hnow
  cases hreset.symm.trans hreset'
  obtain ⟨later', after', hrun', hrenews⟩ := hfollow _ after hafter (by decide +kernel) hsilent
  refine ⟨run, hlife, r, hreset, ?_, f, hnew, after, hafter, hopened, hgeneration, later', after',
    hrun', hrenews, ?_⟩
  · rw [htold, hphase]
    rfl
  · have hcircuit := congrArg Circuit.generation hrenews.same.twins.circuit_eq
    rw [hgeneration] at hcircuit
    simp only [Circuit.later, Contrast.renewed, hbefore] at hcircuit
    omega

end Engine

end Breaker
