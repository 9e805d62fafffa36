import Breaker.Proofs.Alongside
import Breaker.Scenario.Run

/-!
# What the end of a call tells

Two lives of one breaker are compared that differ only in what becomes of some
calls, the hidden ones: in when their operations wait, and in how they end.

* When a hidden call ends too late, in a generation that is not its own, the
  breaker does not learn how.  `Stage.EndsStale` says that all of them do, and
  `stale_ends_agree` that nobody else can tell the two lives apart.
* Otherwise the breaker learns one bit.  `Stage.EndsAlike` says that this bit is
  the same in both lives, and `exits_agree` that it makes no difference then
  whether the operation ran through or waited, nor which of its exits it took.

Both are read off `agrees_of_differsIn`, the statement about twins in words of
one breaker: `Run.DiffersIn` is what is supposed of the two lives, and
`Run.Agrees` what they have in common.
-/

namespace Breaker.Engine

section

variable {name : String} {policy : Policy} {audience : Audience} {start : Instant}
variable {schedule schedule' : List (Instant × Move)} {run run' : Run}

theorem answersOwn_of_life (hlife : life name policy audience start schedule = some run)
    (hfits : ∀ entry ∈ schedule, policy.Fits entry.1)
    (hquiet : ∀ s ∈ run.stages, s.listenerPanics = false) : run.AnswersOwn := by
  obtain ⟨e, hnew, hrun⟩ := Option.bind_eq_some_iff.1 hlife
  have hpolicy : e.policy = policy := (new?_eq_some hnew).2.2.2.1
  exact answersOwn_of_run hrun (fits_of_run hrun (hpolicy ▸ hfits)) hquiet

/-! ## What two runs have in common -/

/-- Clients cannot tell the two stages apart, but by the outcome of a call. -/
structure Stage.Agrees (s s' : Stage) : Prop where
  now_eq : s.now = s'.now
  circuit_eq : s.response.engine.circuit = s'.response.engine.circuit
  mailbox_eq : s.response.engine.mailbox = s'.response.engine.mailbox
  serial_eq : s.response.engine.nextSerial = s'.response.engine.nextSerial
  told_eq : toldBy s.response.reply = toldBy s'.response.reply
  reply : s.response.reply = s'.response.reply ∨
    s.response.reply.isOutcome = true ∧ s'.response.reply.isOutcome = true

/-- Clients cannot tell the two runs apart, but by the outcomes of hidden calls,
and by whether these wait. -/
structure Run.Agrees (hidden : Ticket → Bool) (run run' : Run) : Prop where
  circuit_eq : run.engine.circuit = run'.engine.circuit
  mailbox_eq : run.engine.mailbox = run'.engine.mailbox
  serial_eq : run.engine.nextSerial = run'.engine.nextSerial
  told_eq : run.told = run'.told
  stages : List.Forall₂ Stage.Agrees (run.visible hidden) (run'.visible hidden)
  /-- Each of the two can make any further move that is not about a hidden call,
  if the other can. -/
  next : ∀ now move, run.engine.concerns hidden move = false →
    run'.engine.concerns hidden move = false → run.engine.strikes move = false →
    (run.engine.step now move).isSome = (run'.engine.step now move).isSome

/-- Both stages end the same hidden call, in the same way or not, when its
generation is over. -/
def Stage.EndsStale (hidden : Ticket → Bool) (s s' : Stage) : Prop :=
  ∃ t ∈ s.endedCall?, s'.endedCall? = some t ∧ hidden t = true ∧
    t.generation ≠ (s.before.evaluated s.now s.move).generation

/-- Both stages end the same hidden call, and both well or both badly. -/
def Stage.EndsAlike (hidden : Ticket → Bool) (s s' : Stage) : Prop :=
  ∃ ended ∈ s.before.ending s.move, s'.before.ending s'.move = some ended ∧ hidden ended.1 = true

instance (hidden : Ticket → Bool) : DecidableRel (Stage.EndsStale hidden) := fun s s' =>
  inferInstanceAs (Decidable (∃ t ∈ s.endedCall?, s'.endedCall? = some t ∧ hidden t = true ∧
    t.generation ≠ (s.before.evaluated s.now s.move).generation))

instance (hidden : Ticket → Bool) : DecidableRel (Stage.EndsAlike hidden) := fun s s' =>
  inferInstanceAs (Decidable (∃ ended ∈ s.before.ending s.move,
    s'.before.ending s'.move = some ended ∧ hidden ended.1 = true))

/-- The two runs make the same moves at the same instants, but for those with
which hidden calls wait and end.  Stages in which hidden calls end are at the
same instants, and as `ends` says. -/
def Run.DiffersIn (hidden : Ticket → Bool) (ends : Stage → Stage → Prop) (run run' : Run) : Prop :=
  List.Forall₂
    (fun s s' => s.now = s'.now ∧
      (s.move = s'.move ∧ s.before.concerns hidden s.move = false ∧
        s'.before.concerns hidden s'.move = false ∨ ends s s'))
    (run.visible hidden) (run'.visible hidden)

instance (hidden : Ticket → Bool) (ends : Stage → Stage → Prop) [DecidableRel ends]
    (run run' : Run) : Decidable (run.DiffersIn hidden ends run') :=
  inferInstanceAs (Decidable (List.Forall₂ _ (run.visible hidden) (run'.visible hidden)))

/-- Two runs of one breaker that differ in what becomes of the hidden calls. -/
def Contrast.ofOutcomes (hidden : Ticket → Bool) : Contrast where
  hidden := hidden
  answers := Reply.isOutcome
  answers_told reply h := by cases reply <;> first | rfl | cases h

section

variable {hidden : Ticket → Bool} {ends : Stage → Stage → Prop}

theorem isSome_eq_of_rel {α β : Type} {R : α → β → Prop} {a : Option α} {b : Option β}
    (h : Option.Rel R a b) : a.isSome = b.isSome := by
  cases h <;> rfl

theorem Run.DiffersIn.alongside (h : run.DiffersIn hidden ends run') :
    (Contrast.ofOutcomes hidden).Alongside ends run run' := by
  refine List.Forall₂.imp (fun s s' => ?_) h
  rintro ⟨hnow, ⟨hmove, hleft, hright⟩ | hends⟩
  · exact ⟨hnow, .inl ⟨hmove.trans (Move.after_zero s'.move).symm, hleft, hright⟩⟩
  · exact ⟨hnow, .inr hends⟩

theorem agrees_of_match (h : run.DiffersIn hidden ends run')
    (hmatch : (Contrast.ofOutcomes hidden).Match run run') : run.Agrees hidden run' where
  circuit_eq := hmatch.twins.circuit_eq
  mailbox_eq := hmatch.twins.mailbox_eq
  serial_eq := hmatch.twins.serial_eq
  told_eq := hmatch.told_eq
  stages := by
    refine List.Forall₂.mp (fun s s' hsame hresponses => ?_) h hmatch.stages
    exact
      { now_eq := hsame.1
        circuit_eq := hresponses.twins.circuit_eq
        mailbox_eq := hresponses.twins.mailbox_eq
        serial_eq := hresponses.twins.serial_eq
        told_eq := hresponses.reply.told_eq
        reply := by
          have hreply := hresponses.reply
          rw [Contrast.Replies, show (Contrast.ofOutcomes hidden).offset = {} from rfl,
            Reply.after_zero] at hreply
          exact hreply }
  next := by
    intro now move hleft hright hquiet
    have hstep := hmatch.step now move
    rw [show (Contrast.ofOutcomes hidden).offset = {} from rfl, Move.after_zero] at hstep
    exact isSome_eq_of_rel (hstep hleft hright hquiet)

theorem twins_self (hidden : Ticket → Bool) {e : Engine}
    (hnew : new? name policy audience start = some e) :
    (Contrast.ofOutcomes hidden).Twins e e := by
  obtain ⟨hframes, hsuspended, -⟩ := new?_eq_some hnew
  exact
    { policy_eq := rfl
      circuit_eq := rfl
      mailbox_eq := rfl
      serial_eq := rfl
      frames := by
        rw [hframes]
        exact .nil
      suspended_eq := by simp [hsuspended] }

/-- Ends that correspond keep twins, if they count alike or not at all. -/
theorem keeps_of_ends (hends : ∀ s s', ends s s' →
      ∃ t success success', s.before.ending s.move = some (t, success) ∧
        s'.before.ending s'.move = some (t, success') ∧ hidden t = true ∧
        (success = success' ∨ t.generation ≠ (s.before.evaluated s.now s.move).generation)) :
    (Contrast.ofOutcomes hidden).Keeps ends := by
  intro s s' hvalid hvalid' hnow hfits hcorrespond htwins
  obtain ⟨t, success, success', hending, hending', hhidden, hcounts⟩ := hends s s' hcorrespond
  obtain ⟨e₁, sequel, hleft⟩ := ends_of_ending hvalid hending
  obtain ⟨e₁', sequel', hright⟩ := ends_of_ending hvalid' hending'
  have hstep := htwins.ends hleft hright rfl hhidden hcounts s'.move.isOutcome_outcome
    (hnow ▸ hfits)
  rw [hvalid, hnow, hvalid'] at hstep
  cases hstep
  assumption

/-- Two lives that differ in hidden calls agree. -/
theorem agrees_of_differsIn (hlife : life name policy audience start schedule = some run)
    (hlife' : life name policy audience start schedule' = some run')
    (hfits : ∀ entry ∈ schedule', policy.Fits entry.1)
    (hquiet : ∀ s ∈ run.stages, s.listenerPanics = false)
    (hkeeps : (Contrast.ofOutcomes hidden).Keeps ends) (h : run.DiffersIn hidden ends run') :
    run.Agrees hidden run' := by
  obtain ⟨e, hnew, hrun⟩ := Option.bind_eq_some_iff.1 hlife
  obtain ⟨e', hnew', hrun'⟩ := Option.bind_eq_some_iff.1 hlife'
  cases hnew.symm.trans hnew'
  have hpolicy : e.policy = policy := (new?_eq_some hnew).2.2.2.1
  exact agrees_of_match h (Contrast.match_of_alongside (twins_self hidden hnew) hrun hrun' hquiet
    (fits_of_run hrun' (hpolicy ▸ hfits)) hkeeps h.alongside)

end

/-! ## Ends that come too late -/

/-- Stale outcomes cannot interfere.  Take two lives that differ only in how the
hidden calls wait and end, and let each hidden call end when its generation is
over.  Then both have, after every stage, the same circuit, the same mailbox
and the same number of admitted calls, they have told the listener the same,
and they reply the same, but for the outcomes of the hidden calls; in both,
every end of a call comes back with its own operation's result. -/
theorem stale_ends_agree {hidden : Ticket → Bool}
    (hlife : life name policy audience start schedule = some run)
    (hlife' : life name policy audience start schedule' = some run')
    (hfits : ∀ entry ∈ schedule, policy.Fits entry.1)
    (hfits' : ∀ entry ∈ schedule', policy.Fits entry.1)
    (hquiet : ∀ s ∈ run.stages, s.listenerPanics = false)
    (hquiet' : ∀ s ∈ run'.stages, s.listenerPanics = false)
    (hdiffers : run.DiffersIn hidden (Stage.EndsStale hidden) run') :
    run.Agrees hidden run' ∧ run.AnswersOwn ∧ run'.AnswersOwn := by
  refine ⟨agrees_of_differsIn hlife hlife' hfits' hquiet ?_ hdiffers,
    answersOwn_of_life hlife hfits hquiet, answersOwn_of_life hlife' hfits' hquiet'⟩
  apply keeps_of_ends
  rintro s s' ⟨t, hended, hended', hhidden, hstale⟩
  obtain ⟨⟨_, success⟩, hending, rfl⟩ := Option.map_eq_some_iff.1 hended
  obtain ⟨⟨_, success'⟩, hending', rfl⟩ := Option.map_eq_some_iff.1 hended'
  exact ⟨_, success, success', hending, hending', hhidden, .inr hstale⟩

/-- The first call waits while the second one opens the circuit.  Ten
nanoseconds later it ends: it completes in one run and is given up in the other.
Both times the circuit becomes half open on that occasion, and the next call
closes it. -/
theorem stale_ends_agree_reopened :
    ∃ run ∈ life "db" { minRequests := 1, openDuration := 10, probeLimit := 1 } .client 0
        [(0, .call), (0, .suspend), (1, .call), (2, .finish false), (2, .heard),
          (12, .resume ⟨0, 0⟩), (12, .finish true), (12, .heard), (13, .call), (14, .finish true)],
      ∃ run' ∈ life "db" { minRequests := 1, openDuration := 10, probeLimit := 1 } .client 0
          [(0, .call), (0, .suspend), (1, .call), (2, .finish false), (2, .heard),
            (12, .abandon ⟨0, 0⟩), (12, .heard), (13, .call), (14, .finish true)],
        run.DiffersIn (· == ⟨0, 0⟩) (Stage.EndsStale (· == ⟨0, 0⟩)) run' ∧
          run.Agrees (· == ⟨0, 0⟩) run' ∧ run.AnswersOwn ∧ run'.AnswersOwn ∧
          run.engine.circuit.phase = .closed ∧ run.engine.circuit.generation = 3 ∧
          (run.stages.map fun s => s.response.reply)[7]? = some (.completed true) ∧
          (run'.stages.map fun s => s.response.reply)[6]? = some .abandoned := by
  obtain ⟨run, hlife, run', hlife', hdiffers, hquiet, hquiet', hshown⟩ :
      ∃ run ∈ life "db" { minRequests := 1, openDuration := 10, probeLimit := 1 } .client 0
          [(0, .call), (0, .suspend), (1, .call), (2, .finish false), (2, .heard),
            (12, .resume ⟨0, 0⟩), (12, .finish true), (12, .heard), (13, .call),
            (14, .finish true)],
        ∃ run' ∈ life "db" { minRequests := 1, openDuration := 10, probeLimit := 1 } .client 0
            [(0, .call), (0, .suspend), (1, .call), (2, .finish false), (2, .heard),
              (12, .abandon ⟨0, 0⟩), (12, .heard), (13, .call), (14, .finish true)],
          run.DiffersIn (· == ⟨0, 0⟩) (Stage.EndsStale (· == ⟨0, 0⟩)) run' ∧
            (∀ s ∈ run.stages, s.listenerPanics = false) ∧
            (∀ s ∈ run'.stages, s.listenerPanics = false) ∧
            run.engine.circuit.phase = .closed ∧ run.engine.circuit.generation = 3 ∧
            (run.stages.map fun s => s.response.reply)[7]? = some (.completed true) ∧
            (run'.stages.map fun s => s.response.reply)[6]? = some .abandoned := by
    decide +kernel
  obtain ⟨hagrees, hown, hown'⟩ := stale_ends_agree hlife hlife' (by decide +kernel)
    (by decide +kernel) hquiet hquiet' hdiffers
  exact ⟨run, hlife, run', hlife', hdiffers, hagrees, hown, hown', hshown⟩

/-! ## One bit -/

/-- A call can end by every exit that is open to it, when the clock can hold
every deadline. -/
theorem isSome_step_of_ends {e e' : Engine} {now : Instant} {move : Move} {t : Ticket}
    {success : Bool} {sequel : Sequel} (hfits : e.policy.Fits now)
    (hends : e.Ends move t success e' sequel) : (e.step now move).isSome = true := by
  obtain ⟨journal, hstep⟩ := step_of_ends hends now
  rw [← hends.policy_eq] at hfits
  rw [hstep, report]
  cases heval : e'.circuit.evaluate e'.policy now with
  | overflow c => exact absurd heval (Circuit.evaluate_ne_overflow hfits _ _)
  | done c change =>
    simp only
    split
    · rfl
    · cases hsettle : c.settle (e'.accept c change).policy now success with
      | overflow c' => exact absurd hsettle (Circuit.settle_ne_overflow hfits _ _ _)
      | done c' change' => rfl

section

open Scenario

variable {w : World} {id : String}

theorem takeFuture_of_lookup_eq_none (h : w.futures.lookup id = none) :
    w.takeFuture id = (w, none) := by
  have hkeep : (w.futures.filter fun f => f.1 != id) = w.futures := by
    rw [List.filter_eq_self]
    intro f hf
    have hother := List.lookup_eq_none_iff.1 h f hf
    rw [bne_iff_ne]
    rintro rfl
    simp at hother
  rw [World.takeFuture, h, hkeep]

/-- A call that is named, and not polled, is nothing to the breaker. -/
theorem create_eq_putFuture (ear : Ear) (name : String) (h : w.futures.lookup id = none) :
    create ear name id w = { w with futures := (id, .created name) :: w.futures } := by
  rw [create, drop, takeFuture_of_lookup_eq_none h]
  rfl

/-- A call that is given up before it was polled is nothing to the breaker. -/
theorem drop_of_created (ear : Ear) {breaker : String}
    (h : w.futures.lookup id = some (.created breaker)) :
    drop ear id w = ({ w with futures := w.futures.filter fun f => f.1 != id }, .dropped) := by
  rw [drop, World.takeFuture, h]

end

/-- Only the instants of a call and one bit matter.  Take two lives that differ
only in how the hidden calls wait and end, and let each hidden call end at the
same instant in both, both times well or both times badly.  Whether its
operation runs through or waits, and whether it fails, panics or is given up:
both lives have, after every stage, the same circuit, the same mailbox and the
same number of admitted calls, they have told the listener the same, and they
reply the same, but for the outcomes of the hidden calls; in both, every end of
a call comes back with its own operation's result.  No exit is barred to a call
that could take it.

A call that is never polled comes to no breaker: to name it and to give it up
changes the names of calls, and nothing else. -/
theorem exits_agree {hidden : Ticket → Bool}
    (hlife : life name policy audience start schedule = some run)
    (hlife' : life name policy audience start schedule' = some run')
    (hfits : ∀ entry ∈ schedule, policy.Fits entry.1)
    (hfits' : ∀ entry ∈ schedule', policy.Fits entry.1)
    (hquiet : ∀ s ∈ run.stages, s.listenerPanics = false)
    (hquiet' : ∀ s ∈ run'.stages, s.listenerPanics = false)
    (hdiffers : run.DiffersIn hidden (Stage.EndsAlike hidden) run') :
    run.Agrees hidden run' ∧ run.AnswersOwn ∧ run'.AnswersOwn ∧
      (∀ now move t success e' sequel, policy.Fits now →
        run'.engine.Ends move t success e' sequel → (run'.engine.step now move).isSome = true) ∧
      (∀ (ear : Scenario.Ear) (name id : String) (w : Scenario.World),
        w.futures.lookup id = none →
        Scenario.create ear name id w = { w with futures := (id, .created name) :: w.futures }) ∧
      ∀ (ear : Scenario.Ear) (id breaker : String) (w : Scenario.World),
        w.futures.lookup id = some (.created breaker) →
        Scenario.drop ear id w =
          ({ w with futures := w.futures.filter fun f => f.1 != id }, .dropped) := by
  refine ⟨agrees_of_differsIn hlife hlife' hfits' hquiet ?_ hdiffers,
    answersOwn_of_life hlife hfits hquiet, answersOwn_of_life hlife' hfits' hquiet', ?_,
    fun ear name id w => create_eq_putFuture ear name,
    fun ear id breaker w => drop_of_created ear⟩
  · apply keeps_of_ends
    rintro s s' ⟨⟨t, success⟩, hending, hending', hhidden⟩
    exact ⟨t, success, success, hending, hending', hhidden, .inl rfl⟩
  · intro now move t success e' sequel hnow hends
    have hpolicy : run'.engine.policy = policy := (orderly_of_life hlife' hfits').policy_eq
    exact isSome_step_of_ends (hpolicy ▸ hnow) hends

/-- A probe fails while the listener asks the breaker: in one run it is a call
whose operation runs from its admission to its end, in the other a call that is
polled twice and then given up.  Both times the circuit opens again, and the
next call is refused. -/
theorem exits_agree_probe :
    ∃ run ∈ life "db" { minRequests := 1, openDuration := 10 } .client 0
        [(0, .call), (1, .finish false), (1, .heard), (11, .call), (11, .query), (11, .heard),
          (12, .query), (13, .finish false), (13, .query), (13, .heard), (14, .call)],
      ∃ run' ∈ life "db" { minRequests := 1, openDuration := 10 } .client 0
          [(0, .call), (1, .finish false), (1, .heard), (11, .call), (11, .query), (11, .heard),
            (11, .suspend), (12, .query), (12, .resume ⟨1, 2⟩), (12, .suspend),
            (13, .abandon ⟨1, 2⟩), (13, .query), (13, .heard), (14, .call)],
        run.DiffersIn (· == ⟨1, 2⟩) (Stage.EndsAlike (· == ⟨1, 2⟩)) run' ∧
          run.Agrees (· == ⟨1, 2⟩) run' ∧ run.AnswersOwn ∧ run'.AnswersOwn ∧
          run.engine.circuit.phase = .opened ∧ run.engine.circuit.generation = 3 ∧
          (run.stages.map fun s => s.response.reply)[9]? = some (.completed false) ∧
          (run'.stages.map fun s => s.response.reply)[12]? = some .abandoned := by
  obtain ⟨run, hlife, run', hlife', hdiffers, hquiet, hquiet', hshown⟩ :
      ∃ run ∈ life "db" { minRequests := 1, openDuration := 10 } .client 0
          [(0, .call), (1, .finish false), (1, .heard), (11, .call), (11, .query), (11, .heard),
            (12, .query), (13, .finish false), (13, .query), (13, .heard), (14, .call)],
        ∃ run' ∈ life "db" { minRequests := 1, openDuration := 10 } .client 0
            [(0, .call), (1, .finish false), (1, .heard), (11, .call), (11, .query), (11, .heard),
              (11, .suspend), (12, .query), (12, .resume ⟨1, 2⟩), (12, .suspend),
              (13, .abandon ⟨1, 2⟩), (13, .query), (13, .heard), (14, .call)],
          run.DiffersIn (· == ⟨1, 2⟩) (Stage.EndsAlike (· == ⟨1, 2⟩)) run' ∧
            (∀ s ∈ run.stages, s.listenerPanics = false) ∧
            (∀ s ∈ run'.stages, s.listenerPanics = false) ∧
            run.engine.circuit.phase = .opened ∧ run.engine.circuit.generation = 3 ∧
            (run.stages.map fun s => s.response.reply)[9]? = some (.completed false) ∧
            (run'.stages.map fun s => s.response.reply)[12]? = some .abandoned := by
    decide +kernel
  obtain ⟨hagrees, hown, hown', -⟩ := exits_agree hlife hlife' (by decide +kernel)
    (by decide +kernel) hquiet hquiet' hdiffers
  exact ⟨run, hlife, run', hlife', hdiffers, hagrees, hown, hown', hshown⟩

end

end Breaker.Engine
