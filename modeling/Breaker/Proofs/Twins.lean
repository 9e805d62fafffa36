import Breaker.Proofs.Answer
import Mathlib.Data.List.Basic
import Mathlib.Data.Option.Basic

/-!
# Two breakers side by side

Two breakers are twins when nothing that a client can ask them tells them
apart.  They may differ in three ways, which a `Contrast` lists.

* One of them may be older: its tickets have higher numbers and later
  generations, by a constant `Offset`.
* Some calls are *hidden*.  Each breaker may have its own of them under way, in
  frames or suspended, and the other need not know of them.
* Where one of them answers with the outcome of a hidden call, the other may
  answer otherwise.

`Twins.step` says that twins which make the same move stay twins and reply
alike.  A hidden call may be suspended and resumed on one side only
(`alikeBut_of_pause`).  When it ends, it ends on both (`Twins.ends`), or it ends
on one side while the other is asked for its phase (`Twins.ends_query`).
Nothing is supposed of the breakers but that they are twins, so runs of any
length follow by induction.

The listener has its moves as clients have theirs, but it does not panic: a
panic out of a method that unwinds already has no response, and twins may
unwind for different reasons.
-/

namespace Breaker

/-! ## Later generations -/

namespace Circuit

/-- The circuit in a generation later by `k`. -/
def later (k : Nat) (c : Circuit) : Circuit := { c with generation := c.generation + k }

/-- The outcome of the same step `k` generations later. -/
def Outcome.later (k : Nat) : Outcome → Outcome
  | .done c change => .done (c.later k) change
  | .overflow c => .overflow (c.later k)

theorem circuit_later (k : Nat) (outcome : Outcome) :
    (outcome.later k).circuit = outcome.circuit.later k := by
  cases outcome <;> rfl

section

variable (k : Nat) (policy : Policy) (now : Instant) (c : Circuit)

theorem turn_later (next : Option Phase) :
    (c.later k).turn policy now next = (c.turn policy now next).later k := by
  cases next with
  | none => rfl
  | some phase =>
    simp only [turn, startPeriod, later, Nat.add_right_comm _ k 1]
    cases policy.period phase with
    | none => rfl
    | some span =>
      simp only
      cases Clock.deadline? now span <;> rfl

theorem evaluate_later :
    (c.later k).evaluate policy now = (c.evaluate policy now).later k := by
  rw [evaluate_eq_turn, evaluate_eq_turn]
  exact turn_later k policy now c (c.lapse now)

theorem settle_later (success : Bool) :
    (c.later k).settle policy now success = (c.settle policy now success).later k := by
  rw [settle_eq_turn, settle_eq_turn]
  exact turn_later k policy now (c.record success) _

theorem reset_later : (c.later k).reset policy now = (c.reset policy now).later k := by
  rw [reset_eq_turn, reset_eq_turn]
  exact turn_later k policy now c _

theorem allow_later : (c.later k).allow policy = (c.allow policy).map (later k) := by
  unfold allow
  rw [show (c.later k).phase = c.phase from rfl, show (c.later k).window = c.window from rfl]
  cases c.phase with
  | closed => rfl
  | opened => rfl
  | halfOpen =>
    simp only
    split <;> rfl

end

end Circuit

/-! ## Tickets of an older breaker -/

/-- How far one breaker is ahead of another. -/
structure Offset where
  serials : Nat := 0
  generations : Nat := 0

/-- The ticket that the older breaker gives. -/
def Ticket.after (o : Offset) (t : Ticket) : Ticket :=
  { serial := t.serial + o.serials, generation := t.generation + o.generations }

theorem Ticket.after_injective (o : Offset) : Function.Injective (Ticket.after o) := by
  rintro ⟨serial, generation⟩ ⟨serial', generation'⟩ h
  simp only [Ticket.after, Ticket.mk.injEq] at h ⊢
  omega

/-- The view that the older breaker shows. -/
def View.after (o : Offset) (v : View) : View :=
  { v with generation := v.generation + o.generations }

/-- The move that a client of the older breaker makes. -/
def Move.after (o : Offset) : Move → Move
  | .resume t => .resume (t.after o)
  | .abandon t => .abandon (t.after o)
  | move => move

/-- The reply of the older breaker. -/
def Reply.after (o : Offset) : Reply → Reply
  | .operating t => .operating (t.after o)
  | .suspended t => .suspended (t.after o)
  | .view v => .view (v.after o)
  | reply => reply

/-- What the older breaker does when its transitions have been handed over. -/
def Sequel.after (o : Offset) : Sequel → Sequel
  | .answer reply => .answer (reply.after o)
  | .operate t => .operate (t.after o)
  | sequel => sequel

theorem Move.after_zero (move : Move) : move.after {} = move := by
  cases move <;> rfl

theorem Reply.after_zero (reply : Reply) : reply.after {} = reply := by
  cases reply <;> rfl

/-- A reply with which the end of a call comes back to its caller. -/
def Reply.isOutcome : Reply → Bool
  | .completed _ | .abandoned | .panicked _ => true
  | _ => false

theorem Move.isOutcome_outcome (move : Move) : move.outcome.isOutcome = true := by
  cases move <;> rfl

namespace Engine

@[simp] theorem toldBy_after (o : Offset) (reply : Reply) :
    toldBy (reply.after o) = toldBy reply := by
  cases reply <;> rfl

/-- The call that a move is about: the one that it names, or the one whose
operation has control. -/
def subject (e : Engine) : Move → Option Ticket
  | .resume t | .abandon t => some t
  | .query | .reset | .call => none
  | _ =>
    match e.frames with
    | .operating t :: _ => some t
    | _ => none

/-- Is the move made by the client code that has control? -/
def isOnTop : Move → Bool
  | .suspend | .finish _ | .heard | .panic _ => true
  | _ => false

/-- Does the move suspend or resume a call? -/
def pauses : Move → Bool
  | .suspend | .resume _ => true
  | _ => false

/-- Does the listener panic? -/
def strikes (e : Engine) : Move → Bool
  | .panic _ =>
    match e.frames with
    | .listening _ _ :: _ => true
    | _ => false
  | _ => false

theorem Stage.listenerPanics_eq (s : Stage) : s.listenerPanics = s.before.strikes s.move := by
  unfold Stage.listenerPanics strikes
  cases s.move <;> rcases s.before.frames with _ | ⟨_ | _, _⟩ <;> rfl

/-- Is the move about a hidden call? -/
def concerns (hidden : Ticket → Bool) (e : Engine) (move : Move) : Bool :=
  (e.subject move).any hidden

/-! ## Twins -/

/-- What two breakers may differ in. -/
structure Contrast where
  /-- How far the first breaker is ahead. -/
  offset : Offset := {}
  /-- The calls that the two do not share, by their tickets in the first. -/
  hidden : Ticket → Bool
  /-- What the second may answer when the first answers with an outcome. -/
  answers : Reply → Bool
  answers_told : ∀ reply, answers reply = true → toldBy reply = []

/-- Is the frame of no hidden call? -/
def shows (hidden : Ticket → Bool) : Frame → Bool
  | .operating t => !hidden t
  | .listening _ _ => true

/-- Two engines that differ only in what they have of hidden calls. -/
structure AlikeBut (hidden : Ticket → Bool) (e e' : Engine) : Prop where
  policy_eq : e'.policy = e.policy
  circuit_eq : e'.circuit = e.circuit
  mailbox_eq : e'.mailbox = e.mailbox
  serial_eq : e'.nextSerial = e.nextSerial
  frames_eq : e'.frames.filter (shows hidden) = e.frames.filter (shows hidden)
  suspended_eq : (e'.suspended.filter fun t => !hidden t) = e.suspended.filter fun t => !hidden t

namespace Contrast

variable (κ : Contrast)

/-- The hidden calls by their tickets in the second breaker. -/
def hiddenBeside (t : Ticket) : Bool := κ.hidden (t.after κ.offset)

/-- The same reply, or the outcome of a hidden call and what may stand for it. -/
def Replies (reply reply' : Reply) : Prop :=
  reply = reply'.after κ.offset ∨ reply.isOutcome = true ∧ κ.answers reply' = true

/-- The same sequel, or two that end their methods with such replies. -/
def Sequels (sequel sequel' : Sequel) : Prop :=
  sequel = sequel'.after κ.offset ∨
    ∃ reply reply', sequel.reply? = some reply ∧ sequel'.reply? = some reply' ∧
      reply.isOutcome = true ∧ κ.answers reply' = true

/-- The same frame, up to the sequel. -/
def Frames : Frame → Frame → Prop
  | .listening t sequel, .listening t' sequel' => t = t' ∧ κ.Sequels sequel sequel'
  | .operating t, .operating t' => t = t'.after κ.offset
  | _, _ => False

/-- Two breakers that no client can tell apart. -/
structure Twins (e e' : Engine) : Prop where
  policy_eq : e.policy = e'.policy
  circuit_eq : e.circuit = e'.circuit.later κ.offset.generations
  mailbox_eq : e.mailbox = e'.mailbox
  serial_eq : e.nextSerial = e'.nextSerial + κ.offset.serials
  frames : List.Forall₂ κ.Frames (e.frames.filter (shows κ.hidden))
    (e'.frames.filter (shows κ.hiddenBeside))
  suspended_eq : (e.suspended.filter fun t => !κ.hidden t) =
    (e'.suspended.filter fun t => !κ.hiddenBeside t).map (Ticket.after κ.offset)

/-- Responses of twins that are twins again. -/
structure Responses (r r' : Response) : Prop where
  twins : κ.Twins r.engine r'.engine
  reply : κ.Replies r.reply r'.reply

end Contrast

variable {κ : Contrast} {e e' : Engine} {now : Instant}

/-! ### Hidden calls -/

theorem concerns_of_top {hidden : Ticket → Bool} {move : Move} {t : Ticket} {frames : List Frame}
    (hmove : isOnTop move = true) (hframes : e.frames = .operating t :: frames) :
    e.concerns hidden move = hidden t := by
  cases move <;> simp_all [concerns, subject, isOnTop]

theorem AlikeBut.refl (hidden : Ticket → Bool) (e : Engine) : AlikeBut hidden e e :=
  ⟨rfl, rfl, rfl, rfl, rfl, rfl⟩

theorem alikeBut_top {hidden : Ticket → Bool} {t : Ticket} {frames : List Frame}
    (hhidden : hidden t = true) (hframes : e.frames = .operating t :: frames) :
    AlikeBut hidden e { e with frames } :=
  { AlikeBut.refl hidden e with
    frames_eq := by rw [hframes, List.filter_cons_of_neg (by simp [shows, hhidden])] }

theorem alikeBut_erase {hidden : Ticket → Bool} {t : Ticket} (hhidden : hidden t = true) :
    AlikeBut hidden e { e with suspended := e.suspended.erase t } :=
  { AlikeBut.refl hidden e with
    suspended_eq := by
      rw [← List.erase_filter, List.erase_of_not_mem]
      simp [hhidden] }

/-- Only what is hidden changes when a hidden call is suspended or resumed. -/
theorem alikeBut_of_pause {hidden : Ticket → Bool} {move : Move} {r : Response}
    (hstep : e.step now move = some r) (hpauses : pauses move = true)
    (hconcerns : e.concerns hidden move = true) : AlikeBut hidden e r.engine := by
  cases move with
  | resume t =>
    have hhidden : hidden t = true := hconcerns
    have halike := alikeBut_erase (e := e) hhidden
    simp only [Engine.step] at hstep
    split at hstep <;> cases hstep
    exact
      { halike with
        frames_eq := List.filter_cons_of_neg (by simp [shows, hhidden]) }
  | suspend =>
    simp only [Engine.step] at hstep
    split at hstep <;> cases hstep
    rename_i t frames hframes
    have hhidden : hidden t = true := (concerns_of_top rfl hframes).symm.trans hconcerns
    exact
      { alikeBut_top hhidden hframes with
        suspended_eq := List.filter_cons_of_neg (by simp [hhidden]) }
  | _ => cases hpauses

/-- To suspend a call or to resume it tells the listener nothing. -/
theorem toldBy_of_pause {move : Move} {r : Response} (hstep : e.step now move = some r)
    (hpauses : pauses move = true) : toldBy r.reply = [] := by
  cases move with
  | resume t =>
    simp only [Engine.step] at hstep
    split at hstep <;> cases hstep
    rfl
  | suspend =>
    simp only [Engine.step] at hstep
    split at hstep <;> cases hstep
    rfl
  | _ => cases hpauses

theorem alikeBut_of_ends {hidden : Ticket → Bool} {move : Move} {t : Ticket} {success : Bool}
    {sequel : Sequel} (h : e.Ends move t success e' sequel) (hhidden : hidden t = true) :
    AlikeBut hidden e e' := by
  cases h with
  | finish success hframes => exact alikeBut_top hhidden hframes
  | panic text hframes => exact alikeBut_top hhidden hframes
  | abandon hmem => exact alikeBut_erase hhidden

/-- The end of a call is reported. -/
theorem step_of_ends {move : Move} {t : Ticket} {success : Bool} {sequel : Sequel}
    (h : e.Ends move t success e' sequel) (now : Instant) :
    ∃ journal, e.step now move = e'.report now t success sequel journal := by
  cases h with
  | finish success hframes => exact ⟨[], by simp [Engine.step, hframes]⟩
  | panic text hframes => exact ⟨[.cutShort true], by simp [Engine.step, hframes]⟩
  | abandon hmem => exact ⟨[.cutShort e.isUnwinding], by simp [Engine.step, hmem]⟩

/-- The end of a call that is reported is the end of a call in flight. -/
theorem ends_of_ending {move : Move} {r : Response} {t : Ticket} {success : Bool}
    (hstep : e.step now move = some r) (hending : e.ending move = some (t, success)) :
    ∃ e' sequel, e.Ends move t success e' sequel := by
  cases move with
  | finish success =>
    simp only [ending] at hending
    split at hending <;> cases hending
    exact ⟨_, _, .finish success (by assumption)⟩
  | panic text =>
    simp only [ending] at hending
    split at hending <;> cases hending
    exact ⟨_, _, .panic text (by assumption)⟩
  | abandon t =>
    cases hending
    simp only [Engine.step] at hstep
    split at hstep
    · exact ⟨_, _, .abandon (by assumption)⟩
    · cases hstep
  | _ => cases hending

theorem reply_of_ends {move : Move} {t : Ticket} {success : Bool} {sequel : Sequel}
    (h : e.Ends move t success e' sequel) : sequel.reply? = some move.outcome := by
  cases h <;> rfl

namespace Contrast

theorem Replies.told_eq {reply reply' : Reply} (h : κ.Replies reply reply') :
    toldBy reply = toldBy reply' := by
  rcases h with rfl | ⟨houtcome, hanswers⟩
  · exact toldBy_after κ.offset reply'
  · rw [κ.answers_told reply' hanswers]
    cases reply <;> first | rfl | cases houtcome

/-! ### Frames -/

/-- Frames that are the same are both shown, or both not. -/
theorem Frames.shows_eq {f f' : Frame} (h : κ.Frames f f') :
    shows κ.hidden f = shows κ.hiddenBeside f' := by
  cases f <;> cases f'
  · rfl
  · cases h
  · cases h
  · cases h
    rfl

theorem Twins.push (h : κ.Twins e e') {f f' : Frame} (hframe : κ.Frames f f') :
    κ.Twins { e with frames := f :: e.frames } { e' with frames := f' :: e'.frames } := by
  refine { h with frames := ?_ }
  rw [List.filter_cons, List.filter_cons, ← hframe.shows_eq]
  split
  · exact .cons hframe h.frames
  · exact h.frames

/-- What is hidden may change on either side. -/
theorem Twins.of_alikeBut (h : κ.Twins e e') {e₁ e₁' : Engine} (halike : AlikeBut κ.hidden e e₁)
    (halike' : AlikeBut κ.hiddenBeside e' e₁') : κ.Twins e₁ e₁' where
  policy_eq := by rw [halike.policy_eq, halike'.policy_eq, h.policy_eq]
  circuit_eq := by rw [halike.circuit_eq, halike'.circuit_eq, h.circuit_eq]
  mailbox_eq := by rw [halike.mailbox_eq, halike'.mailbox_eq, h.mailbox_eq]
  serial_eq := by rw [halike.serial_eq, halike'.serial_eq, h.serial_eq]
  frames := by
    rw [halike.frames_eq, halike'.frames_eq]
    exact h.frames
  suspended_eq := by rw [halike.suspended_eq, halike'.suspended_eq, h.suspended_eq]

/-- Where neither has a hidden call on top, the frames on top are the same. -/
theorem Twins.tops (h : κ.Twins e e')
    (hleft : ∀ t frames, e.frames = .operating t :: frames → κ.hidden t = false)
    (hright : ∀ t frames, e'.frames = .operating t :: frames → κ.hiddenBeside t = false) :
    e.frames = [] ∧ e'.frames = [] ∨
      (∃ t sequel frames sequel' frames', e.frames = .listening t sequel :: frames ∧
        e'.frames = .listening t sequel' :: frames' ∧ κ.Sequels sequel sequel' ∧
        κ.Twins { e with frames } { e' with frames := frames' }) ∨
      ∃ t frames frames', e.frames = .operating (t.after κ.offset) :: frames ∧
        e'.frames = .operating t :: frames' ∧
        κ.Twins { e with frames } { e' with frames := frames' } := by
  have hshown : ∀ {f frames}, e.frames = f :: frames → shows κ.hidden f = true := by
    intro f frames hframes
    cases f with
    | listening t sequel => rfl
    | operating t => simp [shows, hleft t frames hframes]
  have hshown' : ∀ {f frames}, e'.frames = f :: frames → shows κ.hiddenBeside f = true := by
    intro f frames hframes
    cases f with
    | listening t sequel => rfl
    | operating t => simp [shows, hright t frames hframes]
  have hframes := h.frames
  cases htop : e.frames with
  | nil =>
    cases htop' : e'.frames with
    | nil => exact .inl ⟨rfl, rfl⟩
    | cons f' frames' =>
      rw [htop, htop', List.filter_cons, if_pos (hshown' htop')] at hframes
      cases hframes
  | cons f frames =>
    rw [htop, List.filter_cons, if_pos (hshown htop)] at hframes
    cases htop' : e'.frames with
    | nil =>
      rw [htop'] at hframes
      cases hframes
    | cons f' frames' =>
      rw [htop', List.filter_cons, if_pos (hshown' htop')] at hframes
      obtain ⟨hframe, hrest⟩ := List.forall₂_cons.1 hframes
      have htwins : κ.Twins { e with frames } { e' with frames := frames' } :=
        { h with frames := hrest }
      right
      cases f <;> cases f'
      · obtain ⟨rfl, hsequel⟩ := hframe
        exact .inl ⟨_, _, _, _, _, rfl, rfl, hsequel, htwins⟩
      · cases hframe
      · cases hframe
      · cases hframe
        exact .inr ⟨_, _, _, rfl, rfl, htwins⟩

/-- Twins that evaluate, or settle a call, take over the same circuit. -/
theorem Twins.accept (h : κ.Twins e e') {c : Circuit} (change : Option Transition) :
    κ.Twins (e.accept (c.later κ.offset.generations) change) (e'.accept c change) :=
  { h with
    circuit_eq := rfl
    mailbox_eq := congrArg (Mailbox.push · change) h.mailbox_eq }

/-! ### Methods -/

theorem Twins.conclude (h : κ.Twins e e') {sequel sequel' : Sequel}
    (hsequel : κ.Sequels sequel sequel') (journal journal' : List Entry) :
    κ.Responses (e.conclude sequel journal) (e'.conclude sequel' journal') := by
  rcases hsequel with rfl | ⟨reply, reply', hreply, hreply', hapart⟩
  · cases sequel' with
    | answer reply => exact ⟨h, .inl rfl⟩
    | operate t => exact ⟨h.push rfl, .inl rfl⟩
    | refuse r => exact ⟨h, .inl rfl⟩
    | unwind text => exact ⟨h, .inl rfl⟩
  · obtain ⟨heq, hengine⟩ := conclude_of_reply hreply e journal
    obtain ⟨heq', hengine'⟩ := conclude_of_reply hreply' e' journal'
    refine ⟨?_, .inr ?_⟩
    · rw [hengine, hengine']
      exact h
    · rw [heq, heq']
      exact hapart

theorem Twins.follow (h : κ.Twins e e') {sequel sequel' : Sequel}
    (hsequel : κ.Sequels sequel sequel') (journal journal' : List Entry)
    (course : Courier × Mailbox) :
    κ.Responses (e.follow sequel journal course) (e'.follow sequel' journal' course) := by
  obtain ⟨courier, mailbox⟩ := course
  have hmailbox : κ.Twins { e with mailbox } { e' with mailbox } := { h with mailbox_eq := rfl }
  cases courier with
  | telling t =>
    have hframe : κ.Frames (.listening t sequel) (.listening t sequel') := ⟨rfl, hsequel⟩
    exact ⟨hmailbox.push hframe, .inl rfl⟩
  | _ => exact hmailbox.conclude hsequel journal journal'

theorem Twins.deliver (h : κ.Twins e e') {sequel sequel' : Sequel}
    (hsequel : κ.Sequels sequel sequel') (journal journal' : List Entry) :
    κ.Responses (e.deliver sequel journal) (e'.deliver sequel' journal') := by
  unfold Engine.deliver
  rw [h.mailbox_eq]
  exact h.follow hsequel journal journal' _

theorem Twins.deliver_same (h : κ.Twins e e') (sequel : Sequel) (journal journal' : List Entry) :
    κ.Responses (e.deliver (sequel.after κ.offset) journal) (e'.deliver sequel journal') :=
  h.deliver (.inl rfl) journal journal'

theorem Twins.overflow (h : κ.Twins e e') (c : Circuit) (journal journal' : List Entry) :
    κ.Responses (e.overflow (c.later κ.offset.generations) journal) (e'.overflow c journal') :=
  ⟨{ h with circuit_eq := rfl }, .inl rfl⟩

/-- Twins evaluate to the same circuit. -/
theorem Twins.evaluate (h : κ.Twins e e') {outcome : Circuit.Outcome}
    (heval : e'.circuit.evaluate e'.policy now = outcome) :
    e.circuit.evaluate e.policy now = outcome.later κ.offset.generations := by
  rw [h.circuit_eq, h.policy_eq, Circuit.evaluate_later, heval]

theorem Twins.query (h : κ.Twins e e') (now : Instant) :
    κ.Responses (e.query now) (e'.query now) := by
  cases heval : e'.circuit.evaluate e'.policy now with
  | overflow c =>
    simp only [Engine.query, h.evaluate heval, heval, Circuit.Outcome.later]
    exact h.overflow c [] []
  | done c change =>
    simp only [Engine.query, h.evaluate heval, heval, Circuit.Outcome.later]
    exact (h.accept change).deliver_same
      (.answer (.view { phase := c.phase, generation := c.generation, window := c.window })) _ _

theorem Twins.reset (h : κ.Twins e e') (now : Instant) :
    κ.Responses (e.reset now) (e'.reset now) := by
  have hreset : e.circuit.reset e.policy now =
      (e'.circuit.reset e'.policy now).later κ.offset.generations := by
    rw [h.circuit_eq, h.policy_eq, Circuit.reset_later]
  cases hdone : e'.circuit.reset e'.policy now with
  | overflow c =>
    simp only [Engine.reset, hreset, hdone, Circuit.Outcome.later]
    exact h.overflow c [] []
  | done c change =>
    simp only [Engine.reset, hreset, hdone, Circuit.Outcome.later]
    exact (h.accept change).deliver_same (.answer .wasReset) _ _

theorem Twins.call (h : κ.Twins e e') (now : Instant) :
    κ.Responses (e.call now) (e'.call now) := by
  cases heval : e'.circuit.evaluate e'.policy now with
  | overflow c =>
    simp only [Engine.call, h.evaluate heval, heval, Circuit.Outcome.later]
    exact h.overflow c [] []
  | done c change =>
    have haccept := h.accept (c := c) change
    have hallow : (c.later κ.offset.generations).allow (e.accept (c.later κ.offset.generations)
        change).policy = (c.allow e'.policy).map (Circuit.later κ.offset.generations) := by
      rw [haccept.policy_eq, Circuit.allow_later]
      rfl
    simp only [Engine.call, h.evaluate heval, heval, Circuit.Outcome.later, hallow]
    cases hallowed : c.allow e'.policy with
    | error r =>
      simp only [show c.allow (e'.accept c change).policy = .error r from hallowed, Except.map]
      exact haccept.deliver_same (.refuse r) _ _
    | ok c' =>
      simp only [show c.allow (e'.accept c change).policy = .ok c' from hallowed, Except.map]
      have hserial : e.nextSerial + 1 = e'.nextSerial + 1 + κ.offset.serials := by
        rw [h.serial_eq, Nat.add_right_comm]
      have hticket : ({ serial := e.nextSerial
                        generation := c'.generation + κ.offset.generations } : Ticket) =
          Ticket.after κ.offset { serial := e'.nextSerial, generation := c'.generation } := by
        rw [Ticket.after, h.serial_eq]
      have hadmitted : κ.Twins
          { e.accept (c.later κ.offset.generations) change with
            circuit := c'.later κ.offset.generations
            nextSerial := e.nextSerial + 1 }
          { e'.accept c change with circuit := c', nextSerial := e'.nextSerial + 1 } :=
        { haccept with circuit_eq := rfl, serial_eq := hserial }
      exact hadmitted.deliver (.inl (congrArg Sequel.operate hticket)) _ _

/-! ### The end of a call -/

/-- The end of a call that both report: it is the same end, or one that is not
counted because the call is of an earlier generation.  When the methods go on
in different ways afterwards, the clock must hold the deadlines. -/
theorem Twins.report (h : κ.Twins e e') {t t' : Ticket} {success success' : Bool}
    {sequel sequel' : Sequel}
    (hgeneration : t.generation = t'.generation + κ.offset.generations)
    (hcounts : success = success' ∨
      t'.generation ≠ (e'.circuit.evaluate e'.policy now).circuit.generation)
    (hsequel : κ.Sequels sequel sequel')
    (hfits : e'.policy.Fits now ∨ sequel = sequel'.after κ.offset)
    (journal journal' : List Entry) :
    Option.Rel κ.Responses (e.report now t success sequel journal)
      (e'.report now t' success' sequel' journal') := by
  have hcut : ∀ (e e' : Engine) (c : Circuit) (journal journal' : List Entry),
      sequel = sequel'.after κ.offset → κ.Twins e e' →
      Option.Rel κ.Responses
        (e.overflowIn sequel (c.later κ.offset.generations) journal)
        (e'.overflowIn sequel' c journal') := by
    rintro e e' c journal journal' rfl h
    cases sequel' <;> first | exact .none | exact .some (h.overflow c _ _)
  cases heval : e'.circuit.evaluate e'.policy now with
  | overflow c =>
    have hsame : sequel = sequel'.after κ.offset :=
      hfits.resolve_left fun hfits => Circuit.evaluate_ne_overflow hfits _ _ heval
    simp only [Engine.report, h.evaluate heval, heval, Circuit.Outcome.later]
    exact hcut e e' c _ _ hsame h
  | done c change =>
    have haccept := h.accept (c := c) change
    have hcurrent : t.generation = (c.later κ.offset.generations).generation ↔
        t'.generation = c.generation := by
      rw [hgeneration, Circuit.later]
      exact Nat.add_right_cancel_iff
    simp only [Engine.report, h.evaluate heval, heval, Circuit.Outcome.later, ne_eq, hcurrent]
    by_cases hstale : t'.generation = c.generation
    · have hsame : success = success' := by
        refine hcounts.resolve_right fun hne => hne ?_
        rw [heval]
        exact hstale
      subst hsame
      have hsettle : (c.later κ.offset.generations).settle
          (e.accept (c.later κ.offset.generations) change).policy now success =
            (c.settle (e'.accept c change).policy now success).later κ.offset.generations := by
        rw [haccept.policy_eq, Circuit.settle_later]
      simp only [hstale, not_true_eq_false, if_false, hsettle]
      cases hsettled : c.settle (e'.accept c change).policy now success with
      | overflow c' =>
        have hsame : sequel = sequel'.after κ.offset :=
          hfits.resolve_left fun hfits => Circuit.settle_ne_overflow hfits _ _ _ hsettled
        exact hcut _ _ c' _ _ hsame haccept
      | done c' change' =>
        exact .some ((haccept.accept change').deliver hsequel _ _)
    · simp only [hstale, not_false_eq_true, if_true]
      exact .some (haccept.deliver hsequel _ _)

/-- The end of a shared call. -/
theorem Twins.report_same (h : κ.Twins e e') (t : Ticket) (success : Bool) (sequel : Sequel)
    (journal journal' : List Entry) :
    Option.Rel κ.Responses
      (e.report now (t.after κ.offset) success (sequel.after κ.offset) journal)
      (e'.report now t success sequel journal') :=
  h.report rfl (.inl rfl) (.inl rfl) (.inr rfl) journal journal'

/-! ### Suspended calls -/

theorem Twins.mem_suspended (h : κ.Twins e e') {t : Ticket}
    (hshared : κ.hiddenBeside t = false) :
    t.after κ.offset ∈ e.suspended ↔ t ∈ e'.suspended := by
  have hmem : t.after κ.offset ∈ e.suspended.filter (fun t => !κ.hidden t) ↔
      t.after κ.offset ∈
        (e'.suspended.filter fun t => !κ.hiddenBeside t).map (Ticket.after κ.offset) := by
    rw [h.suspended_eq]
  rw [List.mem_map_of_injective (Ticket.after_injective κ.offset), List.mem_filter,
    List.mem_filter, hshared, show κ.hidden (t.after κ.offset) = false from hshared] at hmem
  simpa using hmem

theorem Twins.erase (h : κ.Twins e e') (t : Ticket) :
    κ.Twins { e with suspended := e.suspended.erase (t.after κ.offset) }
      { e' with suspended := e'.suspended.erase t } := by
  refine { h with suspended_eq := ?_ }
  rw [← List.erase_filter, ← List.erase_filter, h.suspended_eq,
    List.map_erase (Ticket.after_injective κ.offset)]

theorem Twins.suspend (h : κ.Twins e e') (t : Ticket) :
    κ.Twins { e with suspended := t.after κ.offset :: e.suspended }
      { e' with suspended := t :: e'.suspended } := by
  refine { h with suspended_eq := ?_ }
  rw [List.filter_cons, List.filter_cons, h.suspended_eq]
  cases hhidden : κ.hiddenBeside t <;> simp [show κ.hidden (t.after κ.offset) = _ from hhidden]

/-! ## One move of both -/

/-- Twins that make the same move about a call that they share, or about none,
reply alike and are twins again. -/
theorem Twins.step (h : κ.Twins e e') (now : Instant) {move : Move}
    (hleft : e.concerns κ.hidden (move.after κ.offset) = false)
    (hright : e'.concerns κ.hiddenBeside move = false)
    (hquiet : e.strikes (move.after κ.offset) = false) :
    Option.Rel κ.Responses (e.step now (move.after κ.offset)) (e'.step now move) := by
  have htops (hmove : isOnTop (move.after κ.offset) = true) (hmove' : isOnTop move = true) :=
    h.tops (fun _ _ htop => (concerns_of_top hmove htop).symm.trans hleft)
      (fun _ _ htop => (concerns_of_top hmove' htop).symm.trans hright)
  cases move with
  | query => exact .some (h.query now)
  | reset => exact .some (h.reset now)
  | call => exact .some (h.call now)
  | resume t =>
    simp only [Engine.step, Move.after, h.mem_suspended (t := t) hright]
    split
    · exact .some ⟨(h.erase t).push rfl, .inl rfl⟩
    · exact .none
  | abandon t =>
    simp only [Engine.step, Move.after, h.mem_suspended (t := t) hright]
    split
    · exact (h.erase t).report_same t false (.answer .abandoned) _ _
    · exact .none
  | suspend =>
    rcases htops rfl rfl with
      ⟨htop, htop'⟩ | ⟨t, sequel, _, sequel', _, htop, htop', hsequel, hrest⟩ |
        ⟨t, _, _, htop, htop', hrest⟩ <;> simp only [Engine.step, Move.after, htop, htop']
    · exact .none
    · exact .none
    · exact .some ⟨hrest.suspend t, .inl rfl⟩
  | finish success =>
    rcases htops rfl rfl with
      ⟨htop, htop'⟩ | ⟨t, sequel, _, sequel', _, htop, htop', hsequel, hrest⟩ |
        ⟨t, _, _, htop, htop', hrest⟩ <;> simp only [Engine.step, Move.after, htop, htop']
    · exact .none
    · exact .none
    · exact hrest.report_same t success (.answer (.completed success)) _ _
  | heard =>
    rcases htops rfl rfl with
      ⟨htop, htop'⟩ | ⟨t, sequel, _, sequel', _, htop, htop', hsequel, hrest⟩ |
        ⟨t, _, _, htop, htop', hrest⟩ <;> simp only [Engine.step, Move.after, htop, htop']
    · exact .none
    · rw [h.mailbox_eq]
      exact .some (hrest.follow hsequel [] [] _)
    · exact .none
  | panic text =>
    rcases htops rfl rfl with
      ⟨htop, htop'⟩ | ⟨t, sequel, _, sequel', _, htop, htop', hsequel, hrest⟩ |
        ⟨t, _, _, htop, htop', hrest⟩
    · simp only [Engine.step, Move.after, htop, htop']
      exact .none
    · simp [Move.after, strikes, htop] at hquiet
    · simp only [Engine.step, Move.after, htop, htop']
      exact hrest.report_same t false (.unwind text) _ _

/-- The listener panics in both, or in neither. -/
theorem Twins.strikes_eq (h : κ.Twins e e') {move : Move}
    (hleft : e.concerns κ.hidden (move.after κ.offset) = false)
    (hright : e'.concerns κ.hiddenBeside move = false) :
    e.strikes (move.after κ.offset) = e'.strikes move := by
  cases move with
  | panic text =>
    rcases h.tops (fun _ _ htop => (concerns_of_top rfl htop).symm.trans hleft)
        (fun _ _ htop => (concerns_of_top rfl htop).symm.trans hright) with
      ⟨htop, htop'⟩ | ⟨t, sequel, _, sequel', _, htop, htop', -⟩ | ⟨t, _, _, htop, htop', -⟩ <;>
      simp only [Move.after, strikes, htop, htop']
  | _ => rfl

/-! ## The end of a hidden call -/

/-- A hidden call ends on both sides: in the same way, or in an earlier
generation than the current one. -/
theorem Twins.ends (h : κ.Twins e e') {move move' : Move} {t t' : Ticket}
    {success success' : Bool} {e₁ e₁' : Engine} {sequel sequel' : Sequel}
    (hends : e.Ends move t success e₁ sequel) (hends' : e'.Ends move' t' success' e₁' sequel')
    (hticket : t = t'.after κ.offset) (hhidden : κ.hidden t = true)
    (hcounts : success = success' ∨ t.generation ≠ (e.evaluated now move).generation)
    (hanswers : κ.answers move'.outcome = true) (hfits : e'.policy.Fits now) :
    Option.Rel κ.Responses (e.step now move) (e'.step now move') := by
  obtain ⟨journal, hstep⟩ := step_of_ends hends now
  obtain ⟨journal', hstep'⟩ := step_of_ends hends' now
  have hhidden' : κ.hiddenBeside t' = true := by rw [Contrast.hiddenBeside, ← hticket, hhidden]
  have halike' := alikeBut_of_ends hends' hhidden'
  have hrest : κ.Twins e₁ e₁' := h.of_alikeBut (alikeBut_of_ends hends hhidden) halike'
  have hcounts' : success = success' ∨
      t'.generation ≠ (e₁'.circuit.evaluate e₁'.policy now).circuit.generation := by
    refine hcounts.imp_right fun hstale hcurrent => hstale ?_
    rw [hends.evaluated_eq (h.evaluate rfl), ← halike'.circuit_eq, ← halike'.policy_eq, hticket,
      Circuit.circuit_later, Ticket.after, Circuit.later, hcurrent]
  rw [← halike'.policy_eq] at hfits
  rw [hstep, hstep']
  refine hrest.report (by rw [hticket]; rfl) hcounts' (.inr ?_) (.inl hfits) _ _
  exact ⟨_, _, reply_of_ends hends, reply_of_ends hends', move.isOutcome_outcome, hanswers⟩

/-- A hidden call of an earlier generation ends, and the other breaker is asked
for its phase. -/
theorem Twins.ends_query (h : κ.Twins e e') {move : Move} {t : Ticket} {success : Bool}
    {e₁ : Engine} {sequel : Sequel} (hends : e.Ends move t success e₁ sequel)
    (hhidden : κ.hidden t = true) (hstale : t.generation ≠ (e.evaluated now move).generation)
    (hanswers : ∀ view, κ.answers (.view view) = true) (hfits : e'.policy.Fits now) :
    Option.Rel κ.Responses (e.step now move) (e'.step now .query) := by
  obtain ⟨journal, hstep⟩ := step_of_ends hends now
  have hrest : κ.Twins e₁ e' :=
    h.of_alikeBut (alikeBut_of_ends hends hhidden) (.refl κ.hiddenBeside e')
  rw [hends.evaluated_eq (h.evaluate rfl)] at hstale
  rw [hstep]
  cases heval : e'.circuit.evaluate e'.policy now with
  | overflow c => exact absurd heval (Circuit.evaluate_ne_overflow hfits _ _)
  | done c change =>
    rw [heval] at hstale
    change t.generation ≠ (c.later κ.offset.generations).generation at hstale
    simp only [Engine.report, Engine.step, Engine.query, hrest.evaluate heval, heval,
      Circuit.Outcome.later]
    rw [if_pos hstale]
    refine .some ((hrest.accept change).deliver (.inr ?_) _ _)
    exact ⟨_, _, reply_of_ends hends, rfl, move.isOutcome_outcome, hanswers _⟩

end Contrast

end Engine

end Breaker
