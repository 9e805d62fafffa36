import Breaker.Proofs.Period

/-!
# The turn of a method with the circuit

Every method of a breaker has one turn with the circuit, and puts the changes
that it makes there into the mailbox.  All else that it does is delivery.

* `Circuit.perform` is the turn.  When the clock cannot hold a deadline, the
  method ends there, and `changes_eq_nil_of_not_complete` says that it has then
  put nothing into the mailbox.
* `Engine.duty` finds the turn behind a move of a client, and `Took.performs`
  says that the move does to the circuit and the mailbox what the turn does.
-/

namespace Breaker

/-! ## The circuit -/

/-- What a method does to the circuit. -/
inductive Duty where
  | query
  | call
  /-- Reports the end of a call that was admitted in the given generation. -/
  | report (generation : Nat) (success : Bool)
  | reset
  deriving DecidableEq, Repr

/-- No call is of a generation that has not begun. -/
def Duty.Begun (c : Circuit) : Duty → Prop
  | .report generation _ => generation ≤ c.generation
  | _ => True

instance (c : Circuit) (duty : Duty) : Decidable (duty.Begun c) :=
  match duty with
  | .report generation _ => inferInstanceAs (Decidable (generation ≤ c.generation))
  | .query | .call | .reset => inferInstanceAs (Decidable True)

namespace Circuit

/-- What the turn of a method leaves: the circuit, the changes that it has put
into the mailbox, and whether the clock could hold the deadlines. -/
structure Work where
  circuit : Circuit
  changes : List Transition
  complete : Bool
  deriving DecidableEq, Repr

def Outcome.work : Outcome → Work
  | .done c change => { circuit := c, changes := change.toList, complete := true }
  | .overflow c => { circuit := c, changes := [], complete := false }

/-- What a method does once the circuit is evaluated. -/
def attend (policy : Policy) (now : Instant) (c : Circuit) : Duty → Work
  | .query | .reset => { circuit := c, changes := [], complete := true }
  | .call =>
    match c.allow policy with
    | .ok c => { circuit := c, changes := [], complete := true }
    | .error _ => { circuit := c, changes := [], complete := true }
  | .report generation success =>
    if generation = c.generation then (c.settle policy now success).work
    else { circuit := c, changes := [], complete := true }

/-- The turn of a method with the circuit. -/
def perform (policy : Policy) (now : Instant) (c : Circuit) : Duty → Work
  | .reset => (c.reset policy now).work
  | duty =>
    match c.evaluate policy now with
    | .overflow c => (Outcome.overflow c).work
    | .done c change =>
      let w := c.attend policy now duty
      { w with changes := change.toList ++ w.changes }

section

variable {policy : Policy} {now : Instant} {c : Circuit} {duty : Duty}

theorem perform_of_done {c' : Circuit} {change : Option Transition} (hduty : duty ≠ .reset)
    (heval : c.evaluate policy now = .done c' change) :
    c.perform policy now duty =
      { c'.attend policy now duty with
        changes := change.toList ++ (c'.attend policy now duty).changes } := by
  cases duty with
  | reset => exact absurd rfl hduty
  | _ => simp only [perform, heval]

theorem perform_of_overflow {c' : Circuit} (hduty : duty ≠ .reset)
    (heval : c.evaluate policy now = .overflow c') :
    c.perform policy now duty = { circuit := c', changes := [], complete := false } := by
  cases duty with
  | reset => exact absurd rfl hduty
  | _ => simp only [perform, heval, Outcome.work]

theorem path_work {o : Outcome} (hcomplete : o.work.complete = true) {p : Phase}
    (hchange : ∀ c' change, o = .done c' change → change = p.change c'.phase) :
    Path p o.work.changes o.work.circuit.phase := by
  cases o with
  | overflow c' => cases hcomplete
  | done c' change =>
    show Path p change.toList c'.phase
    rw [hchange c' change rfl]
    exact path_change p c'.phase

theorem path_attend (hcomplete : (c.attend policy now duty).complete = true) :
    Path c.phase (c.attend policy now duty).changes (c.attend policy now duty).circuit.phase := by
  unfold attend at hcomplete ⊢
  split
  · rfl
  · rfl
  · split
    · rename_i c' hallow
      rw [allow_eq_ok hallow]
      rfl
    · rfl
  · rename_i generation success
    split
    · rename_i hcurrent
      simp only [hcurrent, if_true] at hcomplete
      exact path_work hcomplete fun c' change hsettle => settle_change hsettle
    · rfl

/-- The changes of a complete turn lead from phase to phase. -/
theorem path_perform (hcomplete : (c.perform policy now duty).complete = true) :
    Path c.phase (c.perform policy now duty).changes (c.perform policy now duty).circuit.phase := by
  by_cases hduty : duty = .reset
  · subst hduty
    apply path_work hcomplete
    intro c' change hreset
    rw [reset_eq_turn] at hreset
    exact turn_eq_done hreset
  · cases heval : c.evaluate policy now with
    | overflow c' =>
      rw [perform_of_overflow hduty heval] at hcomplete
      cases hcomplete
    | done c' change =>
      rw [perform_of_done hduty heval] at hcomplete ⊢
      have hdue : Path c.phase change.toList c'.phase := by
        rw [evaluate_change heval]
        exact path_change c.phase c'.phase
      exact hdue.append (path_attend hcomplete)

/-- The clock holds the deadlines, so every turn is complete. -/
theorem perform_complete (hfits : policy.Fits now) (c : Circuit) (duty : Duty) :
    (c.perform policy now duty).complete = true := by
  have hturn : ∀ (c : Circuit) (next : Option Phase),
      (c.turn policy now next).work.complete = true := by
    intro c next
    cases hwork : c.turn policy now next with
    | done c' change => rfl
    | overflow c' => exact absurd hwork (turn_ne_overflow hfits next c c')
  by_cases hduty : duty = .reset
  · subst hduty
    exact hturn c (some .closed)
  · cases heval : c.evaluate policy now with
    | overflow c' => exact absurd heval (evaluate_ne_overflow hfits c c')
    | done c' change =>
      rw [perform_of_done hduty heval]
      show (c'.attend policy now duty).complete = true
      unfold attend
      split
      · rfl
      · rfl
      · split <;> rfl
      · split
        · rw [settle_eq_turn]
          exact hturn _ _
        · rfl

/-- A turn that is cut short has put nothing into the mailbox: where the time
had come for a new period, the call that ends is of an earlier one. -/
theorem changes_eq_nil_of_not_complete (hbegun : duty.Begun c)
    (hcut : (c.perform policy now duty).complete = false) :
    (c.perform policy now duty).changes = [] := by
  by_cases hduty : duty = .reset
  · subst hduty
    change (c.reset policy now).work.changes = []
    change (c.reset policy now).work.complete = false at hcut
    cases hreset : c.reset policy now with
    | overflow c' => rfl
    | done c' change =>
      rw [hreset] at hcut
      cases hcut
  · cases heval : c.evaluate policy now with
    | overflow c' => rw [perform_of_overflow hduty heval]
    | done c' change =>
      rw [perform_of_done hduty heval] at hcut ⊢
      have hattend : (c'.attend policy now duty).complete = false := hcut
      unfold attend at hattend
      split at hattend
      · cases hattend
      · cases hattend
      · split at hattend <;> cases hattend
      · rename_i generation success
        split at hattend
        · rename_i hcurrent
          -- The period is still the one before the turn, so nothing was due.
          have hsame : change = none := by
            rw [evaluate_eq_turn] at heval
            cases hlapse : c.lapse now with
            | none =>
              rw [hlapse] at heval
              cases heval
              rfl
            | some phase =>
              have hgeneration := (circuit_turn_some policy now phase c).2.1
              rw [← hlapse, heval] at hgeneration
              change c'.generation = c.generation + 1 at hgeneration
              change generation ≤ c.generation at hbegun
              omega
          have hsettle : (c'.settle policy now success).work.changes = [] := by
            cases hwork : c'.settle policy now success with
            | overflow c'' => rfl
            | done c'' change' =>
              rw [hwork] at hattend
              cases hattend
          simp [attend, hcurrent, hsettle, hsame]
        · cases hattend

end

end Circuit

/-! ## The turn behind a move -/

namespace Engine

/-- What the method behind a move does to the circuit, if it has to do with it. -/
def duty (e : Engine) (move : Move) : Option Duty :=
  match move with
  | .query => some .query
  | .call => some .call
  | .reset => some .reset
  | move => (e.ending move).map fun ended => .report ended.1.generation ended.2

/-- Where the courier of a method is that has replied. -/
def courierOf : Reply → Courier
  | .listening t => .telling t
  | _ => .gone

section

variable {e : Engine} {now : Instant} {move : Move} {r : Response} {sequel : Sequel}

theorem duty_of_ending {t : Ticket} {success : Bool} (hending : e.ending move = some (t, success)) :
    e.duty move = some (.report t.generation success) := by
  unfold duty
  split
  · cases hending
  · cases hending
  · cases hending
  · rw [hending]
    rfl

/-- The call that a move ends is of a generation that has begun. -/
theorem Past.begun (h : e.Past move) {duty : Duty} (hduty : e.duty move = some duty) :
    duty.Begun e.circuit := by
  cases hending : e.ending move with
  | some ended =>
    obtain ⟨t, success⟩ := ended
    cases (duty_of_ending hending).symm.trans hduty
    exact h t success hending
  | none =>
    unfold Engine.duty at hduty
    split at hduty
    · cases hduty
      trivial
    · cases hduty
      trivial
    · cases hduty
      trivial
    · rw [hending] at hduty
      cases hduty

/-- How a method responds after its turn `w` with the circuit. -/
inductive Performs (e : Engine) (w : Circuit.Work) : Response → Prop where
  | delivers {e' : Engine} {sequel : Sequel} (hcomplete : w.complete = true)
      (hcircuit : e'.circuit = w.circuit)
      (hmailbox : e'.mailbox = { e.mailbox with pending := e.mailbox.pending ++ w.changes })
      (hsequel : isProper sequel = true) (journal : List Entry) :
      Performs e w (e'.deliver sequel journal)
  | panics {r : Response} (hcomplete : w.complete = false)
      (hcircuit : r.engine.circuit = w.circuit)
      (hmailbox : r.engine.mailbox = { e.mailbox with pending := e.mailbox.pending ++ w.changes })
      (hreply : courierOf r.reply = .gone) : Performs e w r

theorem Settles.attend_eq {policy : Policy} {t : Ticket} {success : Bool} {c c' : Circuit}
    {change : Option Transition} (h : Settles policy now t success c c' change) :
    c.attend policy now (.report t.generation success) =
      { circuit := c', changes := change.toList, complete := true } := by
  rcases h with ⟨hstale, rfl, rfl⟩ | ⟨hcurrent, hsettle⟩
  · rw [Circuit.attend, if_neg hstale]
    rfl
  · rw [Circuit.attend, if_pos hcurrent, hsettle]
    rfl

/-- A move does to the circuit and the mailbox what its method does. -/
theorem Took.performs (h : e.Took now move r) (hproper : e.Proper) {duty : Duty}
    (hduty : e.duty move = some duty) :
    e.Performs (e.circuit.perform e.policy now duty) r := by
  cases h with
  | @queried c change heval view journal =>
    cases hduty
    rw [Circuit.perform_of_done Duty.noConfusion heval]
    exact .delivers rfl rfl (by simp [accept, Mailbox.push, Circuit.attend]) rfl journal
  | @refused c change refusal heval hallow journal =>
    cases hduty
    rw [Circuit.perform_of_done Duty.noConfusion heval]
    refine .delivers ?_ ?_ ?_ rfl journal <;>
      simp [accept, Mailbox.push, Circuit.attend, hallow]
  | @admitted c c' change heval hallow journal =>
    cases hduty
    rw [Circuit.perform_of_done Duty.noConfusion heval]
    refine .delivers ?_ ?_ ?_ rfl journal <;>
      simp [accept, Mailbox.push, Circuit.attend, hallow]
  | @reset c change hreset journal =>
    cases hduty
    have hwork : e.circuit.perform e.policy now .reset =
        { circuit := c, changes := change.toList, complete := true } := by
      rw [Circuit.perform, hreset]
      rfl
    rw [hwork]
    exact .delivers rfl rfl rfl rfl journal
  | @cut move c hmove heval =>
    have hne : duty ≠ .reset := by
      rcases hmove with rfl | rfl <;> cases hduty <;> exact Duty.noConfusion
    rw [Circuit.perform_of_overflow hne heval]
    exact .panics rfl rfl (by simp [overflow]) rfl
  | @resetCut c hreset =>
    cases hduty
    have hwork : e.circuit.perform e.policy now .reset =
        { circuit := c, changes := [], complete := false } := by
      rw [Circuit.perform, hreset]
      rfl
    rw [hwork]
    exact .panics rfl rfl (by simp [overflow]) rfl
  | @ended move t success e' sequel c c' change change' hends heval hsettles journal =>
    cases (duty_of_ending hends.ending).symm.trans hduty
    have hmailbox := hends.listeners_eq.1
    rw [Circuit.perform_of_done Duty.noConfusion heval, hsettles.attend_eq]
    refine .delivers rfl rfl ?_ (hends.proper hproper).2 journal
    simp [accept, Mailbox.push, hmailbox]
  | @endedCut move t success e' sequel c hends heval journal =>
    cases (duty_of_ending hends.ending).symm.trans hduty
    have hmailbox := hends.listeners_eq.1
    rw [Circuit.perform_of_overflow Duty.noConfusion heval]
    refine .panics rfl rfl ?_ rfl
    simp [overflow, hmailbox]
  | @settledCut move t success e' sequel c c' change hends heval hcurrent hsettle journal =>
    cases (duty_of_ending hends.ending).symm.trans hduty
    have hmailbox := hends.listeners_eq.1
    have hattend : c.attend e.policy now (.report t.generation success) =
        { circuit := c', changes := [], complete := false } := by
      rw [Circuit.attend, if_pos hcurrent, hsettle]
      rfl
    rw [Circuit.perform_of_done Duty.noConfusion heval, hattend]
    refine .panics rfl rfl ?_ rfl
    simp [overflow, accept, Mailbox.push, hmailbox]
  | resumed hmem => cases hduty
  | suspended hframes => cases hduty
  | heard hframes => cases hduty
  | silenced text hframes => simp [Engine.duty, ending, hframes] at hduty

end

end Engine

end Breaker
