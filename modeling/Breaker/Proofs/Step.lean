import Breaker.Engine

/-!
# What one move does

`Engine.step` is taken apart once, so that no other proof has to look into it.

* `deliver_cases` and `proceed_cases`: a delivery calls the listener with the
  oldest transition, or ends the method;
* `Engine.Took` has one case for each way a move can go, with all that guards
  it, and `step_took` says that there are no others.

The end of a call has one case for a counted outcome and one for a stale one
together: `Settles` is the choice between the two.  The cases whose name ends
in `Cut` are those where the clock cannot hold a deadline.
-/

namespace Breaker

@[simp] theorem Mailbox.push_none (m : Mailbox) : m.push none = m := by
  simp [Mailbox.push]

namespace Engine

/-! ## The delivery at the end of a method -/

theorem follow_gone (e : Engine) (sequel : Sequel) (journal : List Entry) (mailbox : Mailbox) :
    e.follow sequel journal (.gone, mailbox) = { e with mailbox }.conclude sequel journal := rfl

/-- The delivery of a method either calls the listener with the oldest
transition, or has nothing to do and ends the method. -/
theorem deliver_cases (e : Engine) (sequel : Sequel) (journal : List Entry) :
    (∃ t rest, e.mailbox = { pending := t :: rest, held := false } ∧
      e.deliver sequel journal =
        { engine :=
            { e with
              mailbox := { pending := rest, held := true }
              frames := .listening t sequel :: e.frames }
          reply := .listening t
          journal := journal ++ [.told t] }) ∨
    ((e.mailbox.held = true ∨ e.mailbox.pending = []) ∧
      e.deliver sequel journal = e.conclude sequel journal) := by
  unfold deliver
  cases hmailbox : e.mailbox with
  | mk pending held =>
    cases held with
    | true =>
      right
      rw [Courier.dispatch_of_held rfl]
      exact ⟨.inl rfl, by rw [follow_gone, ← hmailbox]⟩
    | false =>
      cases pending with
      | nil =>
        right
        rw [Courier.dispatch_nil]
        exact ⟨.inr rfl, by rw [follow_gone, ← hmailbox]⟩
      | cons t rest =>
        left
        rw [Courier.dispatch_cons]
        exact ⟨t, rest, rfl, rfl⟩

/-- When the listener has returned, it is called with the next transition, or
else the mailbox is let go and the method ends. -/
theorem proceed_cases (e : Engine) (sequel : Sequel) (journal : List Entry) :
    (∃ t rest, e.mailbox.pending = t :: rest ∧
      e.follow sequel journal (Courier.proceed e.mailbox) =
        { engine :=
            { e with
              mailbox := { pending := rest, held := e.mailbox.held }
              frames := .listening t sequel :: e.frames }
          reply := .listening t
          journal := journal ++ [.told t] }) ∨
    (e.mailbox.pending = [] ∧
      e.follow sequel journal (Courier.proceed e.mailbox) =
        { e with mailbox := {} }.conclude sequel journal) := by
  cases hmailbox : e.mailbox with
  | mk pending held =>
    cases pending with
    | nil =>
      right
      rw [Courier.proceed_nil]
      exact ⟨rfl, rfl⟩
    | cons t rest =>
      left
      rw [Courier.proceed_cons]
      exact ⟨t, rest, rfl, rfl⟩

/-- The end of a method leaves the circuit and the policy alone. -/
theorem conclude_keeps (e : Engine) (sequel : Sequel) (journal : List Entry) :
    (e.conclude sequel journal).engine.circuit = e.circuit ∧
      (e.conclude sequel journal).engine.policy = e.policy := by
  cases sequel <;> exact ⟨rfl, rfl⟩

theorem deliver_keeps (e : Engine) (sequel : Sequel) (journal : List Entry) :
    (e.deliver sequel journal).engine.circuit = e.circuit ∧
      (e.deliver sequel journal).engine.policy = e.policy := by
  rcases deliver_cases e sequel journal with ⟨t, rest, -, heq⟩ | ⟨-, heq⟩
  · rw [heq]
    exact ⟨rfl, rfl⟩
  · rw [heq]
    exact conclude_keeps e sequel journal

theorem proceed_keeps (e : Engine) (sequel : Sequel) (journal : List Entry) :
    (e.follow sequel journal (Courier.proceed e.mailbox)).engine.circuit = e.circuit ∧
      (e.follow sequel journal (Courier.proceed e.mailbox)).engine.policy = e.policy := by
  rcases proceed_cases e sequel journal with ⟨t, rest, -, heq⟩ | ⟨-, heq⟩
  · rw [heq]
    exact ⟨rfl, rfl⟩
  · rw [heq]
    exact conclude_keeps _ sequel journal

/-! ## The ways a move can go -/

/-- How a move reports the end of a call: the ticket, the outcome, the engine
without the call, and what the method does in the end. -/
inductive Ends (e : Engine) : Move → Ticket → Bool → Engine → Sequel → Prop where
  | finish {t : Ticket} {frames : List Frame} (success : Bool)
      (hframes : e.frames = .operating t :: frames) :
      Ends e (.finish success) t success { e with frames } (.answer (.completed success))
  | panic {t : Ticket} {frames : List Frame} (text : String)
      (hframes : e.frames = .operating t :: frames) :
      Ends e (.panic text) t false { e with frames } (.unwind text)
  | abandon {t : Ticket} (hmem : t ∈ e.suspended) :
      Ends e (.abandon t) t false { e with suspended := e.suspended.erase t } (.answer .abandoned)

/-- What the end of a call does to an evaluated circuit: nothing when the call
is of an earlier generation. -/
def Settles (policy : Policy) (now : Instant) (t : Ticket) (success : Bool) (c c' : Circuit)
    (change : Option Transition) : Prop :=
  t.generation ≠ c.generation ∧ c' = c ∧ change = none ∨
    t.generation = c.generation ∧ c.settle policy now success = .done c' change

/-- Everything that a move can do, one case for each way it can go. -/
inductive Took (e : Engine) (now : Instant) : Move → Response → Prop where
  | queried {c : Circuit} {change : Option Transition}
      (heval : e.circuit.evaluate e.policy now = .done c change) (view : View)
      (journal : List Entry) :
      Took e now .query ((e.accept c change).deliver (.answer (.view view)) journal)
  | refused {c : Circuit} {change : Option Transition} {r : Refusal}
      (heval : e.circuit.evaluate e.policy now = .done c change)
      (hallow : c.allow e.policy = .error r) (journal : List Entry) :
      Took e now .call ((e.accept c change).deliver (.refuse r) journal)
  | admitted {c c' : Circuit} {change : Option Transition}
      (heval : e.circuit.evaluate e.policy now = .done c change)
      (hallow : c.allow e.policy = .ok c') (journal : List Entry) :
      Took e now .call
        ({ e.accept c change with circuit := c', nextSerial := e.nextSerial + 1 }.deliver
          (.operate { serial := e.nextSerial, generation := c'.generation }) journal)
  | reset {c : Circuit} {change : Option Transition}
      (hreset : e.circuit.reset e.policy now = .done c change) (journal : List Entry) :
      Took e now .reset ((e.accept c change).deliver (.answer .wasReset) journal)
  | cut {move : Move} {c : Circuit} (hmove : move = .query ∨ move = .call)
      (heval : e.circuit.evaluate e.policy now = .overflow c) :
      Took e now move (e.overflow c [])
  | resetCut {c : Circuit} (hreset : e.circuit.reset e.policy now = .overflow c) :
      Took e now .reset (e.overflow c [])
  | ended {move : Move} {t : Ticket} {success : Bool} {e' : Engine} {sequel : Sequel}
      {c c' : Circuit} {change change' : Option Transition}
      (hends : e.Ends move t success e' sequel)
      (heval : e.circuit.evaluate e.policy now = .done c change)
      (hsettles : Settles e.policy now t success c c' change') (journal : List Entry) :
      Took e now move (((e'.accept c change).accept c' change').deliver sequel journal)
  | endedCut {move : Move} {t : Ticket} {success : Bool} {e' : Engine} {sequel : Sequel}
      {c : Circuit} (hends : e.Ends move t success e' sequel)
      (heval : e.circuit.evaluate e.policy now = .overflow c) (journal : List Entry) :
      Took e now move (e'.overflow c journal)
  | settledCut {move : Move} {t : Ticket} {success : Bool} {e' : Engine} {sequel : Sequel}
      {c c' : Circuit} {change : Option Transition} (hends : e.Ends move t success e' sequel)
      (heval : e.circuit.evaluate e.policy now = .done c change)
      (hcurrent : t.generation = c.generation)
      (hsettle : c.settle e.policy now success = .overflow c') (journal : List Entry) :
      Took e now move ((e'.accept c change).overflow c' journal)
  | resumed {t : Ticket} (hmem : t ∈ e.suspended) :
      Took e now (.resume t)
        { engine :=
            { e with suspended := e.suspended.erase t, frames := .operating t :: e.frames }
          reply := .operating t }
  | suspended {t : Ticket} {frames : List Frame} (hframes : e.frames = .operating t :: frames) :
      Took e now .suspend
        { engine := { e with frames, suspended := t :: e.suspended }
          reply := .suspended t }
  | heard {t : Transition} {sequel : Sequel} {frames : List Frame}
      (hframes : e.frames = .listening t sequel :: frames) :
      Took e now .heard ({ e with frames }.follow sequel [] (Courier.proceed e.mailbox))
  | silenced {t : Transition} {sequel : Sequel} {frames : List Frame} (text : String)
      (hframes : e.frames = .listening t sequel :: frames) :
      Took e now (.panic text)
        { engine := { e with frames, mailbox := e.mailbox.release }
          reply := .panicked text }

/-- Accepting a circuit without a change a second time changes nothing. -/
theorem accept_accept_none (e : Engine) (c : Circuit) (change : Option Transition) :
    (e.accept c change).accept c none = e.accept c change := by
  rw [accept, Mailbox.push_none]
  rfl

/-- A panic of the library inside one that is unwinding has no response. -/
theorem overflowIn_eq_some {e : Engine} {sequel : Sequel} {c : Circuit} {journal : List Entry}
    {r : Response} (h : e.overflowIn sequel c journal = some r) : r = e.overflow c journal := by
  cases sequel <;> simp_all [overflowIn]

theorem report_took {e e' : Engine} {now : Instant} {move : Move} {t : Ticket} {success : Bool}
    {sequel : Sequel} {journal : List Entry} {r : Response}
    (hends : e.Ends move t success e' sequel)
    (h : e'.report now t success sequel journal = some r) : e.Took now move r := by
  have hsame : e'.circuit = e.circuit ∧ e'.policy = e.policy := by
    cases hends <;> exact ⟨rfl, rfl⟩
  unfold report at h
  rw [hsame.1, hsame.2] at h
  cases heval : e.circuit.evaluate e.policy now with
  | overflow c =>
    simp only [heval] at h
    rw [overflowIn_eq_some h]
    exact .endedCut hends heval journal
  | done c change =>
    simp only [heval] at h
    split at h
    · rename_i hstale
      rw [← accept_accept_none] at h
      cases h
      exact .ended hends heval (.inl ⟨hstale, rfl, rfl⟩) _
    · rename_i hnot
      have hcurrent : t.generation = c.generation := by omega
      rw [show (e'.accept c change).policy = e.policy from hsame.2] at h
      cases hsettle : c.settle e.policy now success with
      | overflow c' =>
        simp only [hsettle] at h
        rw [overflowIn_eq_some h]
        exact .settledCut hends heval hcurrent hsettle _
      | done c' change' =>
        simp only [hsettle] at h
        cases h
        exact .ended hends heval (.inr ⟨hcurrent, hsettle⟩) _

/-- The ways of `Took` are all there are. -/
theorem step_took {e : Engine} {now : Instant} {move : Move} {r : Response}
    (h : e.step now move = some r) : e.Took now move r := by
  cases move with
  | query =>
    simp only [step, query, Option.some.injEq] at h
    subst h
    split
    · exact .cut (.inl rfl) (by assumption)
    · exact .queried (by assumption) _ _
  | reset =>
    simp only [step, reset, Option.some.injEq] at h
    subst h
    split
    · exact .resetCut (by assumption)
    · exact .reset (by assumption) _
  | call =>
    simp only [step, call, Option.some.injEq] at h
    subst h
    split
    · exact .cut (.inr rfl) (by assumption)
    · rename_i c change heval
      split
      · exact .refused heval (by assumption) _
      · exact .admitted heval (by assumption) _
  | resume t =>
    simp only [step] at h
    split at h
    · cases h
      exact .resumed (by assumption)
    · cases h
  | abandon t =>
    simp only [step] at h
    split at h
    · exact report_took (.abandon (by assumption)) h
    · cases h
  | suspend =>
    simp only [step] at h
    split at h
    · cases h
      exact .suspended (by assumption)
    · cases h
  | finish success =>
    simp only [step] at h
    split at h
    · exact report_took (.finish success (by assumption)) h
    · cases h
  | heard =>
    simp only [step] at h
    split at h
    · cases h
      exact .heard (by assumption)
    · cases h
  | panic text =>
    simp only [step] at h
    split at h
    · exact report_took (.panic text (by assumption)) h
    · split at h
      · cases h
      · cases h
        exact .silenced text (by assumption)
    · cases h

/-- The return of the listener leaves the circuit alone. -/
theorem circuit_of_heard {e : Engine} {now : Instant} {r : Response}
    (h : e.step now .heard = some r) : r.engine.circuit = e.circuit := by
  cases step_took h with
  | @heard t sequel frames hframes => exact (proceed_keeps { e with frames } sequel []).1
  | cut hmove heval => rcases hmove with hmove | hmove <;> cases hmove
  | ended hends heval hsettles journal => cases hends
  | endedCut hends heval journal => cases hends
  | settledCut hends heval hcurrent hsettle journal => cases hends

end Engine

end Breaker
