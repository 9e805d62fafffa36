import Breaker.Phase

/-!
# Delivery of transitions

Transitions wait in a mailbox and are handed to the listener in order, by one
courier at a time.  A courier works in stages, each of which touches the
mailbox once, so that the stages of several couriers can be interleaved.  One
that finds the mailbox held by another leaves at once; the holder looks again
after it has let go, and so takes what came in meanwhile.
-/

namespace Breaker

/-- Transitions not yet handed over, oldest first, and whether a courier
holds the mailbox. -/
structure Mailbox where
  pending : List Transition := []
  held : Bool := false
  deriving DecidableEq, Repr

namespace Mailbox

/-- Adds a change of phase, if there was one. -/
def push (m : Mailbox) (change : Option Transition) : Mailbox :=
  { m with pending := m.pending ++ change.toList }

/-- Lets go of the mailbox. -/
def release (m : Mailbox) : Mailbox := { m with held := false }

@[simp] theorem pending_push (m : Mailbox) (change : Option Transition) :
    (m.push change).pending = m.pending ++ change.toList := rfl

@[simp] theorem held_push (m : Mailbox) (change : Option Transition) :
    (m.push change).held = m.held := rfl

@[simp] theorem pending_release (m : Mailbox) : m.release.pending = m.pending := rfl

@[simp] theorem held_release (m : Mailbox) : m.release.held = false := rfl

end Mailbox

/-- Where a courier is: about to take hold of the mailbox, about to take out
the oldest transition, handing it to the listener, about to let go, about to
look whether something came in, or gone. -/
inductive Courier where
  | seeking
  | holding
  | telling (t : Transition)
  | releasing
  | checking
  | gone
  deriving DecidableEq, Repr

namespace Courier

/-- One stage.  From `telling` it goes on when the listener has returned. -/
def step : Courier → Mailbox → Courier × Mailbox
  | .seeking, m => if m.held then (.gone, m) else (.holding, { m with held := true })
  | .holding, m =>
    match m.pending with
    | [] => (.releasing, m)
    | t :: rest => (.telling t, { m with pending := rest })
  | .telling _, m => (.holding, m)
  | .releasing, m => (.checking, m.release)
  | .checking, m => (if m.pending.isEmpty then .gone else .seeking, m)
  | .gone, m => (.gone, m)

/-- Goes on, stage by stage, until the listener is to be called or the
courier is gone. -/
def carry : Nat → Courier → Mailbox → Courier × Mailbox
  | 0, courier, m => (courier, m)
  | fuel + 1, courier, m =>
    match courier with
    | .gone => (.gone, m)
    | .telling t => (.telling t, m)
    | courier => let next := courier.step m; carry fuel next.1 next.2

/-- A new courier, as far as the first call of the listener.  Nothing comes in
while it works alone, so four stages are enough. -/
def dispatch (m : Mailbox) : Courier × Mailbox := carry 5 .seeking m

/-- The courier after the listener has returned. -/
def proceed (m : Mailbox) : Courier × Mailbox := carry 4 .holding m

/-- Another courier is at work: nothing happens. -/
theorem dispatch_of_held {m : Mailbox} (h : m.held = true) : dispatch m = (.gone, m) := by
  simp [dispatch, carry, step, h]

/-- The oldest transition is taken out and handed over. -/
theorem dispatch_cons {t : Transition} {rest : List Transition} :
    dispatch { pending := t :: rest, held := false } =
      (.telling t, { pending := rest, held := true }) := by
  simp [dispatch, carry, step]

/-- Without anything to hand over the mailbox is let go. -/
theorem dispatch_nil :
    dispatch { pending := [], held := false } = (.gone, { pending := [], held := false }) := by
  simp [dispatch, carry, step, Mailbox.release]

theorem proceed_cons {t : Transition} {rest : List Transition} {held : Bool} :
    proceed { pending := t :: rest, held } = (.telling t, { pending := rest, held }) := by
  simp [proceed, carry, step]

theorem proceed_nil {held : Bool} :
    proceed { pending := [], held } = (.gone, { pending := [], held := false }) := by
  simp [proceed, carry, step, Mailbox.release]

end Courier

end Breaker
