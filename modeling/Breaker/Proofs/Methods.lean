import Breaker.Proofs.Delivery

/-!
# Each method by itself

`Took` tells the ways apart that a move can go, and leaves open what a method
shows and what it notes.  Here both are said, with one equation for each way.
A method has its turn with the circuit first, and the equations take the result
of that turn as a hypothesis.

`Ends.step_eq` brings the three moves that end a call into one form: each of
them reports the end, after a note of how the call was cut short, if it was.
`step_outside` is for a breaker whose listener does not have control: what is
left of the moves are the methods, the ends of calls, and the pauses.
-/

namespace Breaker

/-- What a query shows of a circuit that is evaluated. -/
def Circuit.view (c : Circuit) : View :=
  { phase := c.phase, generation := c.generation, window := c.window }

namespace Engine

variable {e : Engine} {now : Instant} {c c' : Circuit} {change change' : Option Transition}

theorem query_of_done (heval : e.circuit.evaluate e.policy now = .done c change) :
    e.query now = (e.accept c change).deliver (.answer (.view c.view)) (noted change) := by
  simp only [query, heval]
  rfl

theorem reset_of_done (hreset : e.circuit.reset e.policy now = .done c change) :
    e.reset now =
      (e.accept c change).deliver (.answer .wasReset) (noted change ++ [.reset]) := by
  simp only [Engine.reset, hreset]

theorem call_of_error {refusal : Refusal}
    (heval : e.circuit.evaluate e.policy now = .done c change)
    (hallow : c.allow e.policy = .error refusal) :
    e.call now = (e.accept c change).deliver (.refuse refusal) (noted change) := by
  have hsame : c.allow (e.accept c change).policy = .error refusal := hallow
  simp only [call, heval, hsame]

/-- The ticket of the next call, when it is admitted to the given circuit. -/
def nextTicket (e : Engine) (c : Circuit) : Ticket :=
  { serial := e.nextSerial, generation := c.generation }

theorem call_of_ok (heval : e.circuit.evaluate e.policy now = .done c change)
    (hallow : c.allow e.policy = .ok c') :
    e.call now =
      { e.accept c change with circuit := c', nextSerial := e.nextSerial + 1 }.deliver
        (.operate (e.nextTicket c')) (noted change ++ [Entry.admitted (e.nextTicket c')]) := by
  have hsame : c.allow (e.accept c change).policy = .ok c' := hallow
  simp only [call, heval, hsame]
  rfl

section

variable {t : Ticket} {success : Bool} {sequel : Sequel} (journal : List Entry)

theorem report_of_stale (heval : e.circuit.evaluate e.policy now = .done c change)
    (hstale : t.generation ≠ c.generation) :
    e.report now t success sequel journal =
      some ((e.accept c change).deliver sequel
        (journal ++ noted change ++ [.stale t c.generation success])) := by
  simp only [report, heval, if_pos hstale]

theorem report_of_current (heval : e.circuit.evaluate e.policy now = .done c change)
    (hcurrent : t.generation = c.generation)
    (hsettle : c.settle e.policy now success = .done c' change') :
    e.report now t success sequel journal =
      some (((e.accept c change).accept c' change').deliver sequel
        (journal ++ noted change ++ [.counted t success] ++ noted change')) := by
  have hsame : c.settle (e.accept c change).policy now success = .done c' change' := hsettle
  simp only [report, heval, if_neg (not_not_intro hcurrent), hsame]

end

/-- What is noted of a call that did not end by itself. -/
def cutNote (e : Engine) : Move → List Entry
  | .panic _ => [.cutShort true]
  | .abandon _ => [.cutShort e.isUnwinding]
  | _ => []

theorem Ends.step_eq {e' : Engine} {move : Move} {t : Ticket} {success : Bool} {sequel : Sequel}
    (h : e.Ends move t success e' sequel) (now : Instant) :
    e.step now move = e'.report now t success sequel (e.cutNote move) := by
  cases h with
  | finish success hframes =>
    simp only [step, hframes]
    rfl
  | panic text hframes =>
    simp only [step, hframes]
    rfl
  | abandon hmem =>
    simp only [step, if_pos hmem]
    rfl

/-! ## Outside the listener -/

/-- All that was announced has been delivered: the mailbox is empty and held by
nobody, and the listener does not have control. -/
structure AllDelivered (e : Engine) : Prop where
  mailbox_eq : e.mailbox = {}
  outside : listeners e.frames = 0

/-- The running operation waits, or a waiting one goes on. -/
structure Pauses (e : Engine) (move : Move) (r : Response) : Prop where
  reply_eq : ∃ t, move = .suspend ∧ r.reply = .suspended t ∨
    move = .resume t ∧ r.reply = .operating t
  engine_eq : ∃ frames suspended,
    r.engine = { e with frames, suspended } ∧ listeners frames = listeners e.frames
  journal_eq : r.journal = []

/-- What a move is when the listener does not have control. -/
inductive Outside (e : Engine) (now : Instant) : Move → Response → Prop where
  | query : Outside e now .query (e.query now)
  | reset : Outside e now .reset (e.reset now)
  | call : Outside e now .call (e.call now)
  | ends {move : Move} {r : Response} {e' : Engine} {t : Ticket} {success : Bool} {sequel : Sequel}
      (hends : e.Ends move t success e' sequel) : Outside e now move r
  | pauses {move : Move} {r : Response} (h : e.Pauses move r) : Outside e now move r

theorem ne_listening_of_outside (houtside : listeners e.frames = 0) {t : Transition}
    {sequel : Sequel} {frames : List Frame} : e.frames ≠ .listening t sequel :: frames := by
  intro hframes
  rw [hframes, listeners_listening] at houtside
  cases houtside

theorem step_outside {move : Move} {r : Response} (houtside : listeners e.frames = 0)
    (hstep : e.step now move = some r) : e.Outside now move r := by
  cases move with
  | query =>
    cases hstep
    exact .query
  | reset =>
    cases hstep
    exact .reset
  | call =>
    cases hstep
    exact .call
  | resume t =>
    simp only [step] at hstep
    split at hstep
    · cases hstep
      exact .pauses ⟨⟨t, .inr ⟨rfl, rfl⟩⟩, ⟨_, _, rfl, listeners_operating t e.frames⟩, rfl⟩
    · cases hstep
  | abandon t =>
    simp only [step] at hstep
    split at hstep
    next hmem => exact .ends (.abandon hmem)
    · cases hstep
  | suspend =>
    simp only [step] at hstep
    split at hstep
    next t frames hframes =>
      cases hstep
      have hlisteners : listeners frames = listeners e.frames := by
        rw [hframes, listeners_operating]
      exact .pauses ⟨⟨t, .inl ⟨rfl, rfl⟩⟩, ⟨_, _, rfl, hlisteners⟩, rfl⟩
    · cases hstep
  | finish success =>
    simp only [step] at hstep
    split at hstep
    next t frames hframes => exact .ends (.finish success hframes)
    · cases hstep
  | heard =>
    simp only [step] at hstep
    split at hstep
    next hframes => exact absurd hframes (ne_listening_of_outside houtside)
    · cases hstep
  | panic text =>
    simp only [step] at hstep
    split at hstep
    next t frames hframes => exact .ends (.panic text hframes)
    next hframes => exact absurd hframes (ne_listening_of_outside houtside)
    · cases hstep

end Engine

end Breaker
