import Breaker.Proofs.Twins
import Mathlib.Data.List.Forall2

/-!
# Runs of twins

Two runs go alongside each other when they make the same moves at the same
instants, apart from what they do with hidden calls.  A hidden call may wait at
any time in one run and not in the other, so the stages in which one is
suspended or resumed are left out of the comparison.  When a hidden call ends,
the stages of the two runs need not be the same; the relation `ends` says which
of them correspond.

* `forall₂_filter_induction` is the induction over two such lists of stages;
* `match_of_alongside`: twins whose runs go alongside are twins after every
  stage, and reply alike;
* `Match.step`: afterwards each of them can make a shared move if the other can.
-/

namespace Breaker.Engine

theorem forall₂_concat {α β : Type} {R : α → β → Prop} {l : List α} {l' : List β} {a : α} {b : β} :
    List.Forall₂ R (l ++ [a]) (l' ++ [b]) ↔ List.Forall₂ R l l' ∧ R a b := by
  rw [← List.forall₂_reverse_iff, List.reverse_concat, List.reverse_concat, List.forall₂_cons,
    List.forall₂_reverse_iff, and_comm]

/-- Induction over two lists whose elements correspond, apart from those that
are left out. -/
theorem forall₂_filter_induction {α β : Type} {R : α → β → Prop} {p : α → Bool} {q : β → Bool}
    {motive : List α → List β → Prop} (nil : motive [] [])
    (left : ∀ l l' a, p a = false → motive l l' → motive (l ++ [a]) l')
    (right : ∀ l l' b, q b = false → motive l l' → motive l (l' ++ [b]))
    (both : ∀ l l' a b, p a = true → q b = true → R a b → motive l l' →
      motive (l ++ [a]) (l' ++ [b]))
    {l : List α} {l' : List β} (h : List.Forall₂ R (l.filter p) (l'.filter q)) : motive l l' := by
  induction l using List.reverseRecOn generalizing l' with
  | nil =>
    induction l' using List.reverseRecOn with
    | nil => exact nil
    | append_singleton l' b ih =>
      cases hb : q b with
      | false => exact right [] l' b hb (ih (by simpa [hb] using h))
      | true => simp [hb] at h
  | append_singleton l a ih =>
    cases ha : p a with
    | false => exact left l l' a ha (ih (by simpa [ha] using h))
    | true =>
      induction l' using List.reverseRecOn with
      | nil => simp [ha] at h
      | append_singleton l' b ih' =>
        cases hb : q b with
        | false => exact right _ l' b hb (ih' (by simpa [hb] using h))
        | true =>
          simp only [List.filter_append, List.filter_cons, ha, hb, List.filter_nil, if_true] at h
          obtain ⟨hrest, hlast⟩ := forall₂_concat.1 h
          exact both l l' a b ha hb hlast (ih hrest)

/-- Does a hidden call wait in the stage, that is, is one suspended or resumed? -/
def Stage.waits (hidden : Ticket → Bool) (s : Stage) : Bool :=
  pauses s.move && s.before.concerns hidden s.move

/-- The call whose end a stage reports. -/
def Stage.endedCall? (s : Stage) : Option Ticket := (s.before.ending s.move).map Prod.fst

/-- The stages of a run without those in which a hidden call waits. -/
def Run.visible (hidden : Ticket → Bool) (run : Run) : List Stage :=
  run.stages.filter fun s => !s.waits hidden

namespace Contrast

variable (κ : Contrast)

/-- The same move, about a call that both have or about none. -/
structure Shared (s s' : Stage) : Prop where
  move_eq : s.move = s'.move.after κ.offset
  left : s.before.concerns κ.hidden s.move = false
  right : s'.before.concerns κ.hiddenBeside s'.move = false

/-- Runs that make the same moves at the same instants, apart from how hidden
calls wait, and from how they end. -/
def Alongside (ends : Stage → Stage → Prop) (run run' : Run) : Prop :=
  List.Forall₂ (fun s s' => s.now = s'.now ∧ (κ.Shared s s' ∨ ends s s'))
    (run.visible κ.hidden) (run'.visible κ.hiddenBeside)

/-- Runs of twins that nobody can tell apart. -/
structure Match (run run' : Run) : Prop where
  twins : κ.Twins run.engine run'.engine
  told_eq : run.told = run'.told
  stages : List.Forall₂ (fun s s' => κ.Responses s.response s'.response)
    (run.visible κ.hidden) (run'.visible κ.hiddenBeside)

/-- Stages that end a hidden call leave twins, whatever twins they find. -/
def Keeps (ends : Stage → Stage → Prop) : Prop :=
  ∀ s s' : Stage, s.Valid → s'.Valid → s.now = s'.now → s'.before.policy.Fits s'.now →
    ends s s' → κ.Twins s.before s'.before → κ.Responses s.response s'.response

variable {κ} {e e' : Engine} {run run' : Run} {s s' : Stage}

/-! ## One more stage -/

theorem Match.nil (h : κ.Twins e e') : κ.Match { engine := e } { engine := e' } :=
  ⟨h, rfl, .nil⟩

theorem visible_snoc_of_waits {hidden : Ticket → Bool} (hwaits : s.waits hidden = true) :
    (run.snoc s).visible hidden = run.visible hidden := by
  simp [Run.visible, Run.snoc, hwaits]

theorem visible_snoc {hidden : Ticket → Bool} (hwaits : s.waits hidden = false) :
    (run.snoc s).visible hidden = run.visible hidden ++ [s] := by
  simp [Run.visible, Run.snoc, hwaits]

/-- A stage in which a hidden call waits tells the listener nothing. -/
theorem told_snoc_of_waits {hidden : Ticket → Bool} (hvalid : s.Valid)
    (hwaits : s.waits hidden = true) : (run.snoc s).told = run.told := by
  obtain ⟨hpauses, -⟩ := Bool.and_eq_true_iff.1 hwaits
  rw [Run.told_snoc, toldBy_of_pause hvalid hpauses, List.append_nil]

theorem Match.left (h : κ.Match run run') (hbefore : run.engine = s.before) (hvalid : s.Valid)
    (hwaits : s.waits κ.hidden = true) : κ.Match (run.snoc s) run' := by
  obtain ⟨hpauses, hconcerns⟩ := Bool.and_eq_true_iff.1 hwaits
  refine ⟨?_, ?_, ?_⟩
  · have htwins := h.twins
    rw [hbefore] at htwins
    exact htwins.of_alikeBut (alikeBut_of_pause hvalid hpauses hconcerns) (.refl _ _)
  · rw [told_snoc_of_waits hvalid hwaits, h.told_eq]
  · rw [visible_snoc_of_waits hwaits]
    exact h.stages

theorem Match.right (h : κ.Match run run') (hbefore : run'.engine = s'.before) (hvalid : s'.Valid)
    (hwaits : s'.waits κ.hiddenBeside = true) : κ.Match run (run'.snoc s') := by
  obtain ⟨hpauses, hconcerns⟩ := Bool.and_eq_true_iff.1 hwaits
  refine ⟨?_, ?_, ?_⟩
  · have htwins := h.twins
    rw [hbefore] at htwins
    exact htwins.of_alikeBut (.refl _ _) (alikeBut_of_pause hvalid hpauses hconcerns)
  · rw [told_snoc_of_waits hvalid hwaits, h.told_eq]
  · rw [visible_snoc_of_waits hwaits]
    exact h.stages

theorem Match.both (h : κ.Match run run') (hwaits : s.waits κ.hidden = false)
    (hwaits' : s'.waits κ.hiddenBeside = false) (hresponses : κ.Responses s.response s'.response) :
    κ.Match (run.snoc s) (run'.snoc s') := by
  refine ⟨hresponses.twins, ?_, ?_⟩
  · rw [Run.told_snoc, Run.told_snoc, h.told_eq, hresponses.reply.told_eq]
  · rw [visible_snoc hwaits, visible_snoc hwaits']
    exact forall₂_concat.2 ⟨h.stages, hresponses⟩

theorem Alongside.left {ends : Stage → Stage → Prop} (h : κ.Alongside ends run run')
    (hwaits : s.waits κ.hidden = true) : κ.Alongside ends (run.snoc s) run' := by
  rw [Alongside, visible_snoc_of_waits hwaits]
  exact h

theorem Alongside.both {ends : Stage → Stage → Prop} (h : κ.Alongside ends run run')
    (hwaits : s.waits κ.hidden = false) (hwaits' : s'.waits κ.hiddenBeside = false)
    (hnow : s.now = s'.now) (hmoves : κ.Shared s s' ∨ ends s s') :
    κ.Alongside ends (run.snoc s) (run'.snoc s') := by
  rw [Alongside, visible_snoc hwaits, visible_snoc hwaits']
  exact forall₂_concat.2 ⟨h, hnow, hmoves⟩

/-- A shared move keeps twins. -/
theorem Shared.responses (h : κ.Shared s s') (hvalid : s.Valid) (hvalid' : s'.Valid)
    (hnow : s.now = s'.now) (hquiet : s.listenerPanics = false)
    (htwins : κ.Twins s.before s'.before) : κ.Responses s.response s'.response := by
  rw [Stage.listenerPanics_eq, h.move_eq] at hquiet
  have hstep := htwins.step s'.now (h.move_eq ▸ h.left) h.right hquiet
  rw [← h.move_eq, ← hnow, hvalid, hnow, hvalid'] at hstep
  cases hstep
  assumption

/-! ## Whole runs -/

/-- Twins whose runs go alongside stay twins, and reply alike. -/
theorem match_of_alongside {ends : Stage → Stage → Prop} {schedule schedule' : List (Instant × Move)}
    (htwins : κ.Twins e e') (hrun : e.run schedule = some run) (hrun' : e'.run schedule' = some run')
    (hquiet : ∀ s ∈ run.stages, s.listenerPanics = false)
    (hfits : ∀ s ∈ run'.stages, s.before.policy.Fits s.now) (hkeeps : κ.Keeps ends)
    (h : κ.Alongside ends run run') : κ.Match run run' := by
  refine forall₂_filter_induction (motive := fun l l' => ∀ schedule schedule' run run',
    e.run schedule = some run → e'.run schedule' = some run' → run.stages = l → run'.stages = l' →
    (∀ s ∈ l, s.listenerPanics = false) → (∀ s ∈ l', s.before.policy.Fits s.now) →
    κ.Match run run') ?_ ?_ ?_ ?_ h schedule schedule' run run' hrun hrun' rfl rfl hquiet hfits
  · intro schedule schedule' run run' hrun hrun' hnil hnil' _ _
    rw [run_eq_nil hrun hnil, run_eq_nil hrun' hnil']
    exact .nil htwins
  · intro l l' s hwaits ih schedule schedule' run run' hrun hrun' hstages hstages' hquiet hfits
    obtain ⟨first, rest, -, hfirst, hl, hbefore, hvalid, rfl⟩ := run_eq_concat hrun hstages
    have hmatch := ih rest schedule' first run' hfirst hrun' hl hstages'
      (fun s hs => hquiet s (List.mem_append_left _ hs)) hfits
    exact hmatch.left hbefore hvalid (by simpa using hwaits)
  · intro l l' s' hwaits ih schedule schedule' run run' hrun hrun' hstages hstages' hquiet hfits
    obtain ⟨first', rest', -, hfirst, hl, hbefore, hvalid, rfl⟩ := run_eq_concat hrun' hstages'
    have hmatch := ih schedule rest' run first' hrun hfirst hstages hl hquiet
      (fun s hs => hfits s (List.mem_append_left _ hs))
    exact hmatch.right hbefore hvalid (by simpa using hwaits)
  · rintro l l' s s' hwaits hwaits' ⟨hnow, hmoves⟩ ih schedule schedule' run run' hrun hrun'
      hstages hstages' hquiet hfits
    obtain ⟨first, rest, -, hfirst, hl, hbefore, hvalid, rfl⟩ := run_eq_concat hrun hstages
    obtain ⟨first', rest', -, hfirst', hl', hbefore', hvalid', rfl⟩ := run_eq_concat hrun' hstages'
    have hmatch := ih rest rest' first first' hfirst hfirst' hl hl'
      (fun s hs => hquiet s (List.mem_append_left _ hs))
      (fun s hs => hfits s (List.mem_append_left _ hs))
    have htwins : κ.Twins s.before s'.before := hbefore ▸ hbefore' ▸ hmatch.twins
    refine hmatch.both (by simpa using hwaits) (by simpa using hwaits') ?_
    rcases hmoves with hshared | hends
    · exact hshared.responses hvalid hvalid' hnow (hquiet s (by simp)) htwins
    · exact hkeeps s s' hvalid hvalid' hnow (hfits s' (by simp)) hends htwins

/-- Afterwards twins can make the same moves, and their replies are alike. -/
theorem Match.step (h : κ.Match run run') (now : Instant) (move : Move)
    (hleft : run.engine.concerns κ.hidden (move.after κ.offset) = false)
    (hright : run'.engine.concerns κ.hiddenBeside move = false)
    (hquiet : run.engine.strikes (move.after κ.offset) = false) :
    Option.Rel κ.Responses (run.engine.step now (move.after κ.offset))
      (run'.engine.step now move) :=
  h.twins.step now hleft hright hquiet

end Contrast

end Breaker.Engine
