import Breaker.Proofs.Duties
import Mathlib.Algebra.Order.BigOperators.Group.Finset
import Mathlib.Data.Fintype.Basic
import Mathlib.Logic.Function.Iterate

/-!
# Workers that share a breaker

Any number of workers may call methods of one breaker at the same time.  A
method has its turn with the circuit and is then a courier: each stage is a
turn of its own, and the turns of all workers may come in any order.  A method
that the listener calls is that of one more worker.

There are four groups.

* One stage of a courier, whatever the others do: what it takes out of the
  mailbox, whether it holds the mailbox, and when it leaves.
* The run.  `Shared.Attended` is the invariant.  Its `attended` is the point:
  a worker may leave with changes in the mailbox only because another holds it,
  and the holder looks again after it has let go.
* Coming to an end.  `Shared.ahead` bounds the stages that all workers have
  before them, so that nothing waits for ever.
* One worker alone.  A move of an engine is the turn of a method with the
  stages that follow it, up to the listener.
-/

namespace Breaker

/-! ## One stage of a courier -/

namespace Courier

/-- Does the courier hold the mailbox? -/
def holds : Courier → Bool
  | .holding | .telling _ | .releasing => true
  | .seeking | .checking | .gone => false

/-- The transition that the courier hands over in its next stage, if it does. -/
def hands (courier : Courier) (m : Mailbox) : List Transition :=
  match courier, m.pending with
  | .holding, t :: _ => [t]
  | _, _ => []

section

variable {courier : Courier} {m : Mailbox}

/-- What leaves the mailbox is handed over. -/
theorem pending_step (courier : Courier) (m : Mailbox) :
    m.pending = courier.hands m ++ (courier.step m).2.pending := by
  cases courier with
  | seeking =>
    simp only [step, hands]
    split <;> rfl
  | holding => cases hpending : m.pending <;> simp [step, hands, hpending]
  | _ => rfl

/-- The listener is called with what has just been taken out. -/
theorem hands_of_telling {t : Transition} (h : (courier.step m).1 = .telling t) :
    courier.hands m = [t] := by
  cases courier with
  | seeking =>
    simp only [step] at h
    split at h <;> cases h
  | holding =>
    cases hpending : m.pending with
    | nil => simp [step, hpending] at h
    | cons t' rest =>
      simp only [step, hpending, Courier.telling.injEq] at h
      simp [hands, hpending, h]
  | checking =>
    simp only [step] at h
    split at h <;> cases h
  | _ => cases h

theorem holds_of_hands (h : courier.hands m ≠ []) : courier.holds = true := by
  unfold hands at h
  split at h
  · rfl
  · exact absurd rfl h

/-- A stage takes hold of a free mailbox only, and lets go only of what the
courier holds. -/
theorem held_step (courier : Courier) (m : Mailbox) :
    (courier.step m).2.held =
      if courier.holds = true then m.held && (courier.step m).1.holds
      else m.held || (courier.step m).1.holds := by
  cases courier with
  | seeking =>
    cases hheld : m.held <;> simp [step, holds, hheld]
  | holding => cases hpending : m.pending <;> simp [step, holds, hpending]
  | checking => cases hpending : m.pending <;> simp [step, holds, hpending]
  | _ => simp [step, holds, Mailbox.release]

theorem held_eq_false_of_holds (hbefore : courier.holds = false)
    (hafter : (courier.step m).1.holds = true) : m.held = false := by
  cases courier with
  | seeking =>
    cases hheld : m.held with
    | false => rfl
    | true => simp [step, holds, hheld] at hafter
  | checking =>
    simp only [step] at hafter
    split at hafter <;> cases hafter
  | gone => cases hafter
  | _ => cases hbefore

/-- A courier leaves when there is nothing to hand over, or when another holds
the mailbox. -/
theorem leaves (h : (courier.step m).1 = .gone) :
    courier = .gone ∨ (courier.step m).2.pending = [] ∨
      (courier.step m).2.held = true ∧ courier.holds = false := by
  cases courier with
  | seeking =>
    cases hheld : m.held with
    | false => simp [step, hheld] at h
    | true => exact .inr (.inr ⟨by simp [step, hheld], rfl⟩)
  | holding => cases hpending : m.pending <;> simp [step, hpending] at h
  | checking =>
    cases hpending : m.pending with
    | nil => exact .inr (.inl (by simp [step, hpending]))
    | cons t rest => simp [step, hpending] at h
  | gone => exact .inl rfl
  | _ => cases h

/-- Does the next stage of the courier try the mailbox, or look into it? -/
def looks : Courier → Bool
  | .seeking | .holding | .checking => true
  | .telling _ | .releasing | .gone => false

/-- A courier that is under way looks at its next stage, or at the one after. -/
theorem looks_of_ne_gone (h : courier ≠ .gone) :
    courier.looks = true ∨ ∀ m, (courier.step m).1.looks = true := by
  cases courier with
  | telling t => exact .inr fun _ => rfl
  | releasing => exact .inr fun _ => rfl
  | gone => exact absurd rfl h
  | _ => exact .inl rfl

end

end Courier

/-! ## The run -/

/-- A breaker that workers share, with a record of the changes that were made
and of those that were handed to the listener. -/
structure Shared (ι : Type) where
  circuit : Circuit
  mailbox : Mailbox := {}
  courier : ι → Courier := fun _ => .gone
  made : List Transition := []
  told : List Transition := []

/-- A worker that is in no method enters one and has its turn with the circuit,
or one that is a courier goes on by one stage. -/
inductive Turn (ι : Type) where
  | enter (i : ι) (now : Instant) (duty : Duty)
  | stage (i : ι)

namespace Shared

variable {ι : Type}

/-- What ties the couriers to the mailbox. -/
structure Attended (s : Shared ι) : Prop where
  balance : s.told ++ s.mailbox.pending = s.made
  held : s.mailbox.held = true ↔ ∃ i, (s.courier i).holds = true
  unique : ∀ i j, (s.courier i).holds = true → (s.courier j).holds = true → i = j
  /-- The listener has what was handed over last. -/
  telling : ∀ i t, s.courier i = .telling t → ∃ earlier, s.told = earlier ++ [t]
  /-- Where there is something to hand over, a courier is under way. -/
  attended : s.mailbox.pending ≠ [] → ∃ i, s.courier i ≠ .gone

theorem attended_new (circuit : Circuit) : ({ circuit } : Shared ι).Attended := by
  refine ⟨rfl, ?_, ?_, ?_, ?_⟩
  · simp [Courier.holds]
  · intro i j hi
    cases hi
  · intro i t htelling
    cases htelling
  · intro hpending
    exact absurd rfl hpending

/-- Once all workers have left, everything has been handed over. -/
theorem Attended.told_eq_made {s : Shared ι} (h : s.Attended) (hgone : ∀ i, s.courier i = .gone) :
    s.mailbox.pending = [] ∧ s.told = s.made := by
  have hpending : s.mailbox.pending = [] := by
    by_contra hpending
    obtain ⟨i, hi⟩ := h.attended hpending
    exact hi (hgone i)
  have hbalance := h.balance
  rw [hpending, List.append_nil] at hbalance
  exact ⟨hpending, hbalance⟩

variable [DecidableEq ι]

/-- The turn of a method with the circuit.  When the clock cannot hold a
deadline, the method panics and delivers nothing. -/
def enter (policy : Policy) (s : Shared ι) (i : ι) (now : Instant) (duty : Duty) : Shared ι :=
  let w := s.circuit.perform policy now duty
  { circuit := w.circuit
    mailbox := { s.mailbox with pending := s.mailbox.pending ++ w.changes }
    courier := Function.update s.courier i (if w.complete then .seeking else .gone)
    made := s.made ++ w.changes
    told := s.told }

/-- One stage of a courier. -/
def stage (s : Shared ι) (i : ι) : Shared ι :=
  { s with
    mailbox := ((s.courier i).step s.mailbox).2
    courier := Function.update s.courier i ((s.courier i).step s.mailbox).1
    told := s.told ++ (s.courier i).hands s.mailbox }

/-- One turn, if it is possible. -/
def turn (policy : Policy) (s : Shared ι) : Turn ι → Option (Shared ι)
  | .enter i now duty =>
    if s.courier i = .gone ∧ duty.Begun s.circuit then some (s.enter policy i now duty) else none
  | .stage i => some (s.stage i)

/-- A new breaker under a schedule of turns. -/
def run (ι : Type) [DecidableEq ι] (policy : Policy) (start : Instant) (schedule : List (Turn ι)) :
    Option (Shared ι) :=
  (Circuit.fresh? policy start).bind fun circuit =>
    schedule.foldlM (turn policy) { circuit }

theorem Attended.enter {s : Shared ι} (h : s.Attended) (policy : Policy) {i : ι} (now : Instant)
    {duty : Duty} (hgone : s.courier i = .gone) (hbegun : duty.Begun s.circuit) :
    (s.enter policy i now duty).Attended := by
  obtain ⟨hbalance, hheld, hunique, htelling, hattended⟩ := h
  let w := s.circuit.perform policy now duty
  -- The worker holds nothing before its turn and after it.
  have hholds : ∀ j, ((s.enter policy i now duty).courier j).holds = (s.courier j).holds := by
    intro j
    by_cases hj : j = i
    · subst hj
      show (Function.update s.courier j _ j).holds = _
      rw [Function.update_self, hgone]
      split <;> rfl
    · show (Function.update s.courier i _ j).holds = _
      rw [Function.update_of_ne hj]
  refine ⟨?_, ?_, ?_, ?_, ?_⟩
  · show s.told ++ (s.mailbox.pending ++ w.changes) = s.made ++ w.changes
    rw [← List.append_assoc, hbalance]
  · simp only [hholds]
    exact hheld
  · simp only [hholds]
    exact hunique
  · intro j t hj
    have hold : (s.courier j).holds = true := by
      rw [← hholds, hj]
      rfl
    have hne : j ≠ i := by
      rintro rfl
      rw [hgone] at hold
      cases hold
    apply htelling j t
    rw [← hj]
    exact (Function.update_of_ne hne _ _).symm
  · intro hpending
    cases hcomplete : w.complete with
    | true =>
      refine ⟨i, ?_⟩
      show Function.update s.courier i (if w.complete then .seeking else .gone) i ≠ .gone
      rw [Function.update_self, hcomplete]
      exact Courier.noConfusion
    | false =>
      -- Nothing came in, so the worker that attended to the mailbox still does.
      have hchanges : w.changes = [] :=
        Circuit.changes_eq_nil_of_not_complete hbegun hcomplete
      have hsame : (s.enter policy i now duty).mailbox.pending = s.mailbox.pending := by
        show s.mailbox.pending ++ w.changes = s.mailbox.pending
        rw [hchanges, List.append_nil]
      rw [hsame] at hpending
      obtain ⟨j, hj⟩ := hattended hpending
      refine ⟨j, ?_⟩
      have hne : j ≠ i := by
        rintro rfl
        exact hj hgone
      show Function.update s.courier i _ j ≠ .gone
      rw [Function.update_of_ne hne]
      exact hj

theorem courier_stage_self (s : Shared ι) (i : ι) :
    (s.stage i).courier i = ((s.courier i).step s.mailbox).1 :=
  Function.update_self i _ _

theorem courier_stage_of_ne (s : Shared ι) {i j : ι} (h : j ≠ i) :
    (s.stage i).courier j = s.courier j :=
  Function.update_of_ne h _ _

/-- A stage of one courier leaves at most one that holds the mailbox. -/
theorem Attended.unique_stage {s : Shared ι} (h : s.Attended) (i : ι) :
    ∀ j k, ((s.stage i).courier j).holds = true → ((s.stage i).courier k).holds = true →
      j = k := by
  have hother : ∀ j, j ≠ i → ((s.stage i).courier j).holds = true →
      ((s.stage i).courier i).holds = false := by
    intro j hj hholds
    rw [courier_stage_of_ne s hj] at hholds
    rw [courier_stage_self]
    by_contra hafter
    rw [Bool.not_eq_false] at hafter
    cases hbefore : (s.courier i).holds with
    | true => exact hj (h.unique j i hholds hbefore)
    | false =>
      have hfree := Courier.held_eq_false_of_holds hbefore hafter
      rw [h.held.2 ⟨j, hholds⟩] at hfree
      cases hfree
  intro j k hj hk
  by_cases hji : j = i
  · by_cases hki : k = i
    · rw [hji, hki]
    · rw [hji, hother k hki hk] at hj
      cases hj
  · by_cases hki : k = i
    · rw [hki, hother j hji hj] at hk
      cases hk
    · rw [courier_stage_of_ne s hji] at hj
      rw [courier_stage_of_ne s hki] at hk
      exact h.unique j k hj hk

theorem Attended.held_stage {s : Shared ι} (h : s.Attended) (i : ι) :
    (s.stage i).mailbox.held = true ↔ ∃ j, ((s.stage i).courier j).holds = true := by
  show ((s.courier i).step s.mailbox).2.held = true ↔ _
  rw [Courier.held_step]
  cases hbefore : (s.courier i).holds with
  | true =>
    -- The others hold nothing, so it depends on this courier alone.
    rw [if_pos rfl, h.held.2 ⟨i, hbefore⟩, Bool.true_and, ← courier_stage_self]
    refine ⟨fun hafter => ⟨i, hafter⟩, ?_⟩
    rintro ⟨j, hj⟩
    by_cases hji : j = i
    · rw [hji] at hj
      exact hj
    · rw [courier_stage_of_ne s hji] at hj
      exact absurd (h.unique j i hj hbefore) hji
  | false =>
    rw [if_neg Bool.false_ne_true, Bool.or_eq_true, h.held, ← courier_stage_self]
    constructor
    · rintro (⟨j, hj⟩ | hafter)
      · refine ⟨j, ?_⟩
        have hji : j ≠ i := by
          rintro rfl
          rw [hbefore] at hj
          cases hj
        rw [courier_stage_of_ne s hji]
        exact hj
      · exact ⟨i, hafter⟩
    · rintro ⟨j, hj⟩
      by_cases hji : j = i
      · rw [hji] at hj
        exact .inr hj
      · rw [courier_stage_of_ne s hji] at hj
        exact .inl ⟨j, hj⟩

theorem Attended.stage {s : Shared ι} (h : s.Attended) (i : ι) : (s.stage i).Attended := by
  refine ⟨?_, h.held_stage i, h.unique_stage i, ?_, ?_⟩
  · show (s.told ++ (s.courier i).hands s.mailbox) ++ ((s.courier i).step s.mailbox).2.pending =
      s.made
    rw [List.append_assoc, ← Courier.pending_step, h.balance]
  · intro j t hj
    show ∃ earlier, s.told ++ (s.courier i).hands s.mailbox = earlier ++ [t]
    by_cases hji : j = i
    · rw [hji, courier_stage_self] at hj
      exact ⟨s.told, by rw [Courier.hands_of_telling hj]⟩
    · rw [courier_stage_of_ne s hji] at hj
      -- The listener is with another courier, so this one takes nothing out.
      have hnothing : (s.courier i).hands s.mailbox = [] := by
        by_contra hhands
        have hholds : (s.courier j).holds = true := by
          rw [hj]
          rfl
        exact hji (h.unique j i hholds (Courier.holds_of_hands hhands))
      rw [hnothing, List.append_nil]
      exact h.telling j t hj
  · intro hpending
    by_cases hgone : (s.stage i).courier i = .gone
    · rw [courier_stage_self] at hgone
      rcases Courier.leaves hgone with hbefore | hempty | ⟨hheld, hfree⟩
      · -- A worker that is in no method changes nothing.
        have hmailbox : (s.stage i).mailbox = s.mailbox := by
          show ((s.courier i).step s.mailbox).2 = s.mailbox
          rw [hbefore]
          rfl
        rw [hmailbox] at hpending
        obtain ⟨j, hj⟩ := h.attended hpending
        refine ⟨j, ?_⟩
        have hji : j ≠ i := by
          rintro rfl
          exact hj hbefore
        rw [courier_stage_of_ne s hji]
        exact hj
      · exact absurd hempty hpending
      · -- Another courier holds the mailbox.
        obtain ⟨j, hj⟩ := (h.held_stage i).1 hheld
        refine ⟨j, fun hleft => ?_⟩
        rw [hleft] at hj
        cases hj
    · exact ⟨i, hgone⟩

section

variable {policy : Policy} {start : Instant} {schedule : List (Turn ι)} {s : Shared ι}

theorem path_enter {p : Phase} (h : Path p s.made s.circuit.phase) {i : ι} {now : Instant}
    (hfits : policy.Fits now) (duty : Duty) :
    Path p (s.enter policy i now duty).made (s.enter policy i now duty).circuit.phase :=
  h.append (Circuit.path_perform (Circuit.perform_complete hfits s.circuit duty))

/-- Every state that workers can reach is attended, and as long as the clock
holds the deadlines, the changes lead from phase to phase. -/
theorem attended_of_run (h : run ι policy start schedule = some s) :
    s.Attended ∧
      ((∀ i now duty, .enter i now duty ∈ schedule → policy.Fits now) →
        Path .closed s.made s.circuit.phase) := by
  obtain ⟨circuit, hfresh, hrun⟩ := Option.bind_eq_some_iff.1 h
  refine Engine.foldlM_induction (motive := fun s : Shared ι => s.Attended ∧
    ((∀ i now duty, .enter i now duty ∈ schedule → policy.Fits now) →
      Path .closed s.made s.circuit.phase)) ?_ ?_ hrun
  · refine ⟨attended_new circuit, fun _ => ?_⟩
    obtain ⟨-, rfl⟩ := Circuit.fresh?_eq_some hfresh
    rfl
  · rintro s turn s' ⟨hattended, hpath⟩ hmem hturn
    cases turn with
    | enter i now duty =>
      simp only [Shared.turn] at hturn
      split at hturn
      · rename_i hfree
        cases hturn
        refine ⟨hattended.enter policy now hfree.1 hfree.2, fun hfits => ?_⟩
        exact path_enter (hpath hfits) (hfits i now duty hmem) duty
      · cases hturn
    | stage i =>
      cases hturn
      exact ⟨hattended.stage i, hpath⟩

/-- Whatever workers do and in whatever order: what was handed to the listener
and what waits in the mailbox are together all changes, in the order in which
they were made.  At most one worker is in the listener, with the last that was
handed over.

A worker that finds the mailbox held leaves at once.  Still, where a change
waits, some worker is in its method and is about to try the mailbox or to look
into it, at its next stage or at the one after, whatever the others do
meanwhile.  So once all workers have left, nothing waits. -/
theorem told_append_pending_shared (h : run ι policy start schedule = some s) :
    s.told ++ s.mailbox.pending = s.made ∧
      ((∀ i now duty, .enter i now duty ∈ schedule → policy.Fits now) →
        Path .closed s.made s.circuit.phase) ∧
      (∀ i j t u, s.courier i = .telling t → s.courier j = .telling u → i = j) ∧
      (∀ i t, s.courier i = .telling t → ∃ earlier, s.told = earlier ++ [t]) ∧
      (s.mailbox.pending ≠ [] → ∃ i, s.courier i ≠ .gone ∧
        ((s.courier i).looks = true ∨ ∀ m, ((s.courier i).step m).1.looks = true)) ∧
      ((∀ i, s.courier i = .gone) → s.mailbox.pending = [] ∧ s.told = s.made) ∧
      ∀ i, s.courier i = .seeking → s.mailbox.held = true →
        (s.stage i).courier i = .gone ∧ (s.stage i).mailbox = s.mailbox := by
  obtain ⟨hattended, hpath⟩ := attended_of_run h
  refine ⟨hattended.balance, hpath, ?_, hattended.telling, ?_, hattended.told_eq_made, ?_⟩
  · intro i j t u hi hj
    have hholds : (s.courier i).holds = true := by
      rw [hi]
      rfl
    have hholds' : (s.courier j).holds = true := by
      rw [hj]
      rfl
    exact hattended.unique i j hholds hholds'
  · intro hpending
    obtain ⟨i, hi⟩ := hattended.attended hpending
    exact ⟨i, hi, Courier.looks_of_ne_gone hi⟩
  · intro i hseeking hbusy
    have hstep : (s.courier i).step s.mailbox = (.gone, s.mailbox) := by
      rw [hseeking, Courier.step, if_pos hbusy]
    refine ⟨?_, ?_⟩
    · rw [courier_stage_self, hstep]
    · show ((s.courier i).step s.mailbox).2 = s.mailbox
      rw [hstep]

/-- The second worker resets the breaker after the first has looked into the
mailbox for the last time, and leaves because the first still holds it.  The
first looks again after it has let go, and hands over the reset. -/
theorem told_append_pending_shared_late :
    ∃ s ∈ run (Fin 2) { minRequests := 1 } 0
        [.enter 0 0 .call, .stage 0, .stage 0, .stage 0, .stage 0,
          .enter 0 1 (.report 0 false), .stage 0, .stage 0, .stage 0, .stage 0,
          .enter 1 2 .reset, .stage 1, .stage 0, .stage 0, .stage 0, .stage 0, .stage 0,
          .stage 0, .stage 0, .stage 0],
      s.told =
        [{ source := .closed, target := .opened }, { source := .opened, target := .closed }] := by
  obtain ⟨s, hrun, hgone, hmade⟩ :
      ∃ s ∈ run (Fin 2) { minRequests := 1 } 0
          [.enter 0 0 .call, .stage 0, .stage 0, .stage 0, .stage 0,
            .enter 0 1 (.report 0 false), .stage 0, .stage 0, .stage 0, .stage 0,
            .enter 1 2 .reset, .stage 1, .stage 0, .stage 0, .stage 0, .stage 0, .stage 0,
            .stage 0, .stage 0, .stage 0],
        (∀ i, s.courier i = .gone) ∧ s.made =
          [{ source := .closed, target := .opened }, { source := .opened, target := .closed }] := by
    decide +kernel
  obtain ⟨-, -, -, -, -, hall, -⟩ := told_append_pending_shared hrun
  refine ⟨s, hrun, ?_⟩
  rw [(hall hgone).2, hmade]

end

end Shared

/-! ## Coming to an end -/

namespace Courier

/-- How many stages a courier has before it at most, when nothing more comes
in.  One that still looks again may have to begin anew if something waits. -/
def ahead (waiting : Bool) : Courier → Nat
  | .gone => 0
  | .checking => if waiting then 5 else 1
  | .releasing => if waiting then 6 else 2
  | .holding => 3
  | .seeking | .telling _ => 4

/-- The less waits, the sooner a courier is done. -/
theorem ahead_mono {waiting waiting' : Bool} (h : waiting' = true → waiting = true)
    (courier : Courier) : courier.ahead waiting' ≤ courier.ahead waiting := by
  cases courier <;> cases waiting <;> cases waiting' <;> simp_all [ahead]

/-- What waits costs two stages: to take it out and to hand it over. -/
theorem ahead_step {courier : Courier} (h : courier ≠ .gone) (m : Mailbox) :
    2 * (courier.step m).2.pending.length +
        (courier.step m).1.ahead (!(courier.step m).2.pending.isEmpty) <
      2 * m.pending.length + courier.ahead (!m.pending.isEmpty) := by
  cases courier with
  | gone => exact absurd rfl h
  | seeking => cases hheld : m.held <;> simp [step, ahead, hheld]
  | holding =>
    cases hpending : m.pending with
    | nil => simp [step, ahead, hpending]
    | cons t rest =>
      simp only [step, ahead, hpending, List.length_cons]
      omega
  | telling t => simp [step, ahead]
  | releasing => cases hpending : m.pending <;> simp [step, ahead, hpending]
  | checking => cases hpending : m.pending <;> simp [step, ahead, hpending]

theorem pending_of_step {courier : Courier} {m : Mailbox}
    (h : (!(courier.step m).2.pending.isEmpty) = true) : (!m.pending.isEmpty) = true := by
  rw [pending_step courier m]
  cases hrest : (courier.step m).2.pending with
  | nil => simp [hrest] at h
  | cons t rest => cases courier.hands m <;> rfl

end Courier

namespace Shared

variable {ι : Type} [DecidableEq ι]

/-- The workers go on in the given order, and nobody enters. -/
def after (s : Shared ι) (order : Nat → ι) : Nat → Shared ι
  | 0 => s
  | n + 1 => (s.after order n).stage (order n)

variable [Fintype ι]

/-- How many stages all workers have before them at most, when nobody enters. -/
def ahead (s : Shared ι) : Nat :=
  2 * s.mailbox.pending.length + ∑ i, (s.courier i).ahead (!s.mailbox.pending.isEmpty)

theorem ahead_stage (s : Shared ι) {i : ι} (h : s.courier i ≠ .gone) :
    (s.stage i).ahead < s.ahead := by
  have hself : 2 * (s.stage i).mailbox.pending.length +
      ((s.stage i).courier i).ahead (!(s.stage i).mailbox.pending.isEmpty) <
        2 * s.mailbox.pending.length + (s.courier i).ahead (!s.mailbox.pending.isEmpty) := by
    rw [courier_stage_self]
    exact Courier.ahead_step h s.mailbox
  have hothers : ∑ j ∈ Finset.univ.erase i,
        ((s.stage i).courier j).ahead (!(s.stage i).mailbox.pending.isEmpty) ≤
      ∑ j ∈ Finset.univ.erase i, (s.courier j).ahead (!s.mailbox.pending.isEmpty) := by
    apply Finset.sum_le_sum
    intro j hj
    rw [courier_stage_of_ne s (Finset.ne_of_mem_erase hj)]
    exact Courier.ahead_mono Courier.pending_of_step (s.courier j)
  unfold ahead
  rw [← Finset.add_sum_erase _ _ (Finset.mem_univ i),
    ← Finset.add_sum_erase _ _ (Finset.mem_univ i)]
  omega

/-- When nobody enters and the workers in their methods go on, in whatever
order, then they are all done after a while, and everything has been handed
over. -/
theorem told_eq_made_after {policy : Policy} {start : Instant} {schedule : List (Turn ι)}
    {s : Shared ι} (h : run ι policy start schedule = some s) {order : Nat → ι}
    (hgoes : ∀ n, (∃ i, (s.after order n).courier i ≠ .gone) →
      (s.after order n).courier (order n) ≠ .gone) :
    ∃ n ≤ s.ahead, (∀ i, (s.after order n).courier i = .gone) ∧
      (s.after order n).told = s.made := by
  have hkeeps : ∀ n, (s.after order n).Attended ∧ (s.after order n).made = s.made := by
    intro n
    induction n with
    | zero => exact ⟨(attended_of_run h).1, rfl⟩
    | succ n ih => exact ⟨ih.1.stage (order n), ih.2⟩
  -- As long as somebody is in a method, every stage brings the end nearer.
  have hends : ∃ n ≤ s.ahead, ∀ i, (s.after order n).courier i = .gone := by
    by_contra hnever
    have hlong : ∀ n, n ≤ s.ahead + 1 → (s.after order n).ahead + n ≤ s.ahead := by
      intro n
      induction n with
      | zero => exact fun _ => Nat.le_refl _
      | succ n ih =>
        intro hn
        have hunderway : ∃ i, (s.after order n).courier i ≠ .gone := by
          by_contra hall
          exact hnever ⟨n, Nat.le_of_succ_le_succ hn, fun i => by_contra fun hi => hall ⟨i, hi⟩⟩
        have hless := ahead_stage (s.after order n) (hgoes n hunderway)
        have hsofar := ih (Nat.le_of_succ_le hn)
        show ((s.after order n).stage (order n)).ahead + (n + 1) ≤ s.ahead
        omega
    have hlast := hlong (s.ahead + 1) (Nat.le_refl _)
    omega
  obtain ⟨n, hn, hgone⟩ := hends
  obtain ⟨hattended, hmade⟩ := hkeeps n
  exact ⟨n, hn, hgone, (hattended.told_eq_made hgone).2.trans hmade⟩

end Shared

/-! ## One worker alone -/

namespace Courier

/-- Some stages of a courier, one after another. -/
def stages (n : Nat) (p : Courier × Mailbox) : Courier × Mailbox :=
  (fun p => p.1.step p.2)^[n] p

theorem stages_succ (n : Nat) (p : Courier × Mailbox) :
    stages (n + 1) p = stages n (p.1.step p.2) :=
  Function.iterate_succ_apply _ _ _

/-- To go on as far as possible is to take some number of stages. -/
theorem carry_eq_stages (fuel : Nat) (courier : Courier) (m : Mailbox) :
    ∃ n, carry fuel courier m = stages n (courier, m) := by
  induction fuel generalizing courier m with
  | zero => exact ⟨0, rfl⟩
  | succ fuel ih =>
    have hgoes : ∀ c : Courier, carry (fuel + 1) c m = carry fuel (c.step m).1 (c.step m).2 →
        ∃ n, carry (fuel + 1) c m = stages n (c, m) := by
      intro c hcarry
      obtain ⟨n, hn⟩ := ih (c.step m).1 (c.step m).2
      exact ⟨n + 1, by rw [hcarry, hn, stages_succ]⟩
    cases courier with
    | telling t => exact ⟨0, rfl⟩
    | gone => exact ⟨0, rfl⟩
    | _ => exact hgoes _ rfl

/-- A courier that works alone stops in the listener or when it has left. -/
theorem dispatch_stops (m : Mailbox) :
    (dispatch m).1 = .gone ∨ ∃ t, (dispatch m).1 = .telling t := by
  obtain ⟨pending, held⟩ := m
  cases held with
  | true => exact .inl (by rw [dispatch_of_held rfl])
  | false =>
    cases pending with
    | nil => exact .inl (by rw [dispatch_nil])
    | cons t rest => exact .inr ⟨t, by rw [dispatch_cons]⟩

theorem proceed_stops (m : Mailbox) :
    (proceed m).1 = .gone ∨ ∃ t, (proceed m).1 = .telling t := by
  obtain ⟨pending, held⟩ := m
  cases pending with
  | nil => exact .inl (by rw [proceed_nil])
  | cons t rest => exact .inr ⟨t, by rw [proceed_cons]⟩

end Courier

namespace Engine

theorem follow_stops {e : Engine} {sequel : Sequel} (hsequel : isProper sequel = true)
    (journal : List Entry) {p : Courier × Mailbox} (hstops : p.1 = .gone ∨ ∃ t, p.1 = .telling t) :
    (e.follow sequel journal p).engine.circuit = e.circuit ∧
      (e.follow sequel journal p).engine.mailbox = p.2 ∧
      courierOf (e.follow sequel journal p).reply = p.1 := by
  obtain ⟨courier, m⟩ := p
  rcases hstops with hgone | ⟨t, htelling⟩
  · change courier = .gone at hgone
    subst hgone
    rw [follow_gone]
    cases sequel with
    | answer reply =>
      cases reply with
      | listening t => cases hsequel
      | _ => exact ⟨rfl, rfl, rfl⟩
    | _ => exact ⟨rfl, rfl, rfl⟩
  · change courier = .telling t at htelling
    subst htelling
    exact ⟨rfl, rfl, rfl⟩

end Engine

namespace Shared

variable {ι : Type} [DecidableEq ι] {e : Engine} {now : Instant} {move : Move}
variable {r : Engine.Response} {s : Shared ι}

/-- What one worker does alone depends on its courier and the mailbox. -/
theorem after_eq (s : Shared ι) (i : ι) (n : Nat) :
    (s.after (fun _ => i) n).circuit = s.circuit ∧
      ((s.after (fun _ => i) n).courier i, (s.after (fun _ => i) n).mailbox) =
        Courier.stages n (s.courier i, s.mailbox) := by
  induction n with
  | zero => exact ⟨rfl, rfl⟩
  | succ n ih =>
    obtain ⟨hcircuit, hcourier⟩ := ih
    refine ⟨hcircuit, ?_⟩
    rw [Courier.stages, Function.iterate_succ_apply', ← Courier.stages, ← hcourier]
    show (((s.after (fun _ => i) n).stage i).courier i, _) = _
    rw [courier_stage_self]
    rfl

/-- A move that calls a method is the turn of the method with the circuit, and
then as many stages as it takes to come to the listener, or to the end. -/
theorem enter_after (hstep : e.step now move = some r) (hproper : e.Proper) (hpast : e.Past move)
    {duty : Duty} (hduty : e.duty move = some duty) (hcircuit : s.circuit = e.circuit)
    (hmailbox : s.mailbox = e.mailbox) {i : ι} (hgone : s.courier i = .gone) :
    s.turn e.policy (.enter i now duty) = some (s.enter e.policy i now duty) ∧
    ∃ n, ((s.enter e.policy i now duty).after (fun _ => i) n).circuit = r.engine.circuit ∧
      ((s.enter e.policy i now duty).after (fun _ => i) n).mailbox = r.engine.mailbox ∧
      ((s.enter e.policy i now duty).after (fun _ => i) n).courier i =
        Engine.courierOf r.reply := by
  have hbegun : duty.Begun s.circuit := hcircuit ▸ hpast.begun hduty
  refine ⟨if_pos ⟨hgone, hbegun⟩, ?_⟩
  have hperforms := (Engine.step_took hstep).performs hproper hduty
  have hcourier : (s.enter e.policy i now duty).courier i =
      if (e.circuit.perform e.policy now duty).complete then .seeking else .gone := by
    rw [← hcircuit]
    exact Function.update_self _ _ _
  have hwork : (s.enter e.policy i now duty).circuit =
      (e.circuit.perform e.policy now duty).circuit := by
    rw [← hcircuit]
    rfl
  have hpushed : (s.enter e.policy i now duty).mailbox =
      { e.mailbox with
        pending := e.mailbox.pending ++ (e.circuit.perform e.policy now duty).changes } := by
    rw [← hcircuit, ← hmailbox]
    rfl
  cases hperforms with
  | @delivers e' sequel hcomplete hcircuit' hmailbox' hsequel journal =>
    obtain ⟨hsame, hdelivered, hreplied⟩ :=
      Engine.follow_stops (e := e') hsequel journal (Courier.dispatch_stops e'.mailbox)
    obtain ⟨n, hn⟩ := Courier.carry_eq_stages 5 .seeking e'.mailbox
    obtain ⟨hstill, hstages⟩ := after_eq (s.enter e.policy i now duty) i n
    rw [hcourier, hcomplete, if_pos rfl, hpushed, ← hmailbox', ← hn] at hstages
    obtain ⟨hcourier', hmailbox''⟩ := Prod.mk.inj hstages
    refine ⟨n, ?_, hmailbox''.trans hdelivered.symm, hcourier'.trans hreplied.symm⟩
    rw [hstill, hwork, ← hcircuit']
    exact hsame.symm
  | panics hcomplete hcircuit' hmailbox' hreply =>
    refine ⟨0, hwork.trans hcircuit'.symm, hpushed.trans hmailbox'.symm, ?_⟩
    rw [hreply]
    show (s.enter e.policy i now duty).courier i = .gone
    rw [hcourier, hcomplete]
    rfl

/-- When the listener returns, the method goes on by as many stages as it takes
to come to the listener again, or to the end. -/
theorem heard_after (hstep : e.step now .heard = some r) (hproper : e.Proper)
    (hcircuit : s.circuit = e.circuit) (hmailbox : s.mailbox = e.mailbox) {i : ι} {t : Transition}
    (htelling : s.courier i = .telling t) :
    ∃ n, (s.after (fun _ => i) n).circuit = r.engine.circuit ∧
      (s.after (fun _ => i) n).mailbox = r.engine.mailbox ∧
      (s.after (fun _ => i) n).courier i = Engine.courierOf r.reply := by
  simp only [Engine.step] at hstep
  split at hstep
  · rename_i t' sequel frames hframes
    cases hstep
    have hsequel := hproper t' sequel (hframes ▸ List.mem_cons_self)
    obtain ⟨hsame, hdelivered, hreplied⟩ :=
      Engine.follow_stops (e := { e with frames }) hsequel [] (Courier.proceed_stops e.mailbox)
    obtain ⟨n, hn⟩ := Courier.carry_eq_stages 4 .holding e.mailbox
    obtain ⟨hstill, hstages⟩ := after_eq s i (n + 1)
    -- The first stage is the return of the listener.
    have hreturn : Courier.step (.telling t) e.mailbox = (.holding, e.mailbox) := rfl
    rw [htelling, hmailbox, Courier.stages_succ, hreturn, ← hn] at hstages
    obtain ⟨hcourier', hmailbox'⟩ := Prod.mk.inj hstages
    refine ⟨n + 1, ?_, hmailbox'.trans hdelivered.symm, hcourier'.trans hreplied.symm⟩
    rw [hstill, hcircuit]
    exact hsame.symm
  · cases hstep

end Shared

end Breaker
