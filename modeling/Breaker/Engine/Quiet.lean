import Breaker.Engine

/-!
# Quiet listeners

A listener is quiet when it only returns.  With quiet listeners a move runs to
its end in one go: `Engine.stepQuiet` lets the listener return as often as it
is called.  Each return takes one transition out of the mailbox, so the
mailbox bounds how often that is.
-/

namespace Breaker.Engine

/-- Lets the listener return, `fuel` times at most, while it has control. -/
def Response.settleQuiet (now : Instant) : Nat → Response → Response
  | 0, r => r
  | fuel + 1, r =>
    match r.reply with
    | .listening _ =>
      match r.engine.step now .heard with
      | some next => settleQuiet now fuel { next with journal := r.journal ++ next.journal }
      | none => r
    | _ => r

/-- A move and all deliveries that it leads to, with a listener that only
returns. -/
def stepQuiet (e : Engine) (now : Instant) (move : Move) : Option Response :=
  (e.step now move).map fun r =>
    r.settleQuiet now (r.engine.mailbox.pending.length + 1)

end Breaker.Engine
