import Breaker.Proofs.Delivery

/-!
# What a method answers

A method that has transitions to deliver does not answer at once: it waits for
the listener, and the listener may call methods of its own meanwhile.  What the
method will answer is settled when it begins to wait, and stands in its frame.

* `Took.waits`: no move but two takes the frame off, the listener's return and
  its panic, and the return takes it off with the answer that it holds;
* `Stage.ended` is the stage in which a method comes to its end, and
  `answers_of_owes` says what it answers there;
* `Run.AnswersOwn`: queries, resets and ends of calls come back with answers of
  their own, and `answersOwn_of_run` says that they do in every run whose
  listener does not panic;
* `NoLeftovers` holds of a breaker as long as its listener has not panicked:
  there is nothing to deliver that nobody delivers, so that a method which
  changes nothing answers at once.
-/

namespace Breaker

/-- The reply with which a method ends that ends when its transitions have been
handed over. -/
def Sequel.reply? : Sequel → Option Reply
  | .answer reply => some reply
  | .operate _ => none
  | .refuse r => some (.refused r)
  | .unwind text => some (.panicked text)

/-- The operation's own result, with which the end of its call comes back. -/
def Move.outcome : Move → Reply
  | .finish success => .completed success
  | .panic text => .panicked text
  | _ => .abandoned

/-- The method that a move calls can come back with the reply: a query with a
view, a reset with the note of it, and the end of a call with the operation's
own result. -/
def Move.IsAnswer : Move → Reply → Prop
  | .query, reply => ∃ v, reply = .view v
  | .reset, reply => reply = .wasReset
  | move, reply => reply = move.outcome

namespace Engine

theorem conclude_of_reply {sequel : Sequel} {reply : Reply} (h : sequel.reply? = some reply)
    (e : Engine) (journal : List Entry) :
    (e.conclude sequel journal).reply = reply ∧
      (e.conclude sequel journal).engine = e := by
  cases sequel <;> cases h <;> exact ⟨rfl, rfl⟩

/-! ## A frame that waits -/

/-- Somewhere in the stack a method waits for the listener, above the given
frames. -/
def Waits (e : Engine) (sequel : Sequel) (base : List Frame) : Prop :=
  ∃ top t, e.frames = top ++ .listening t sequel :: base

section

variable {e : Engine} {sequel : Sequel} {base : List Frame} {reply : Reply}

/-- What is put onto the stack leaves the frames below alone. -/
theorem Waits.push (h : e.Waits sequel base) {e' : Engine} {pushed : List Frame}
    (hframes : e'.frames = pushed ++ e.frames) : e'.Waits sequel base := by
  obtain ⟨top, t, hwaits⟩ := h
  exact ⟨pushed ++ top, t, by rw [hframes, hwaits, List.append_assoc]⟩

/-- The frame on top is the one that waits, or it stands above it. -/
theorem Waits.top_cases (h : e.Waits sequel base) {f : Frame} {frames : List Frame}
    (hframes : e.frames = f :: frames) :
    (∃ t, f = .listening t sequel ∧ frames = base) ∨
      ({ e with frames } : Engine).Waits sequel base := by
  obtain ⟨top, t, hwaits⟩ := h
  rw [hframes] at hwaits
  cases top with
  | nil =>
    obtain ⟨rfl, rfl⟩ := List.cons.inj hwaits
    exact .inl ⟨t, rfl, rfl⟩
  | cons f' top =>
    obtain ⟨-, rfl⟩ := List.cons.inj hwaits
    exact .inr ⟨top, t, rfl⟩

/-- An operation is no frame that waits. -/
theorem Waits.operating (h : e.Waits sequel base) {t : Ticket} {frames : List Frame}
    (hframes : e.frames = .operating t :: frames) :
    ({ e with frames } : Engine).Waits sequel base := by
  rcases h.top_cases hframes with ⟨t', hf, -⟩ | hwaits
  · cases hf
  · exact hwaits

theorem conclude_frames (e : Engine) (sequel : Sequel) (journal : List Entry) :
    ∃ pushed, (e.conclude sequel journal).engine.frames = pushed ++ e.frames := by
  cases sequel with
  | operate t => exact ⟨[.operating t], rfl⟩
  | answer reply => exact ⟨[], rfl⟩
  | refuse r => exact ⟨[], rfl⟩
  | unwind text => exact ⟨[], rfl⟩

/-- A delivery only puts frames onto the stack. -/
theorem deliver_frames (e : Engine) (sequel : Sequel) (journal : List Entry) :
    ∃ pushed, (e.deliver sequel journal).engine.frames = pushed ++ e.frames := by
  rcases deliver_cases e sequel journal with ⟨t, rest, -, heq⟩ | ⟨-, heq⟩
  · exact ⟨[.listening t sequel], by rw [heq]; rfl⟩
  · rw [heq]
    exact conclude_frames e sequel journal

theorem Waits.deliver {q : Sequel} (h : e.Waits sequel base) (journal : List Entry) :
    (e.deliver q journal).engine.Waits sequel base := by
  obtain ⟨pushed, hframes⟩ := deliver_frames e q journal
  exact h.push hframes

theorem Ends.waits {e' : Engine} {move : Move} {t : Ticket} {success : Bool} {q : Sequel}
    (hends : e.Ends move t success e' q) (h : e.Waits sequel base) : e'.Waits sequel base := by
  cases hends with
  | finish success hframes => exact h.operating hframes
  | panic text hframes => exact h.operating hframes
  | abandon hmem => exact h

/-- A method goes on waiting until the listener has been told all there is,
when it gives the answer that it holds, or until the listener panics. -/
theorem Took.waits {now : Instant} {move : Move} {r : Response} (h : e.Took now move r)
    (hreply : sequel.reply? = some reply) (hwaits : e.Waits sequel base) :
    r.engine.Waits sequel base ∨
      r.engine.frames = base ∧
        (r.reply = reply ∨
          Stage.listenerPanics { before := e, now, move, response := r } = true) := by
  cases h with
  | @queried c change heval view journal =>
    exact .inl (Waits.deliver (e := e.accept c change) hwaits journal)
  | @refused c change refusal heval hallow journal =>
    exact .inl (Waits.deliver (e := e.accept c change) hwaits journal)
  | @admitted c c' change heval hallow journal =>
    obtain ⟨pushed, hframes⟩ := deliver_frames
      { e.accept c change with circuit := c', nextSerial := e.nextSerial + 1 }
      (.operate { serial := e.nextSerial, generation := c'.generation }) journal
    exact .inl (hwaits.push hframes)
  | @reset c change hreset journal =>
    exact .inl (Waits.deliver (e := e.accept c change) hwaits journal)
  | cut hmove heval => exact .inl hwaits
  | resetCut hreset => exact .inl hwaits
  | @ended move t success e' q c c' change change' hends heval hsettles journal =>
    exact .inl (Waits.deliver (e := (e'.accept c change).accept c' change') (hends.waits hwaits)
      journal)
  | endedCut hends heval journal => exact .inl (hends.waits hwaits)
  | settledCut hends heval hcurrent hsettle journal => exact .inl (hends.waits hwaits)
  | @resumed t hmem =>
    have hframes : Frame.operating t :: e.frames = [.operating t] ++ e.frames := rfl
    exact .inl (hwaits.push hframes)
  | suspended hframes => exact .inl (hwaits.operating hframes)
  | @heard t q frames hframes =>
    rcases hwaits.top_cases hframes with ⟨t', hf, rfl⟩ | hbelow
    · cases hf
      rcases proceed_cases { e with frames } sequel [] with ⟨t', rest, -, heq⟩ | ⟨-, heq⟩
      · exact .inl ⟨[], t', by rw [heq]; rfl⟩
      · obtain ⟨hanswer, hengine⟩ :=
          conclude_of_reply hreply { e with frames, mailbox := {} } []
        rw [heq]
        exact .inr ⟨by rw [hengine], .inl hanswer⟩
    · left
      rcases proceed_cases { e with frames } q [] with ⟨t', rest, -, heq⟩ | ⟨-, heq⟩
      · rw [heq]
        have hpushed : Frame.listening t' q :: frames = [.listening t' q] ++ frames := rfl
        exact hbelow.push hpushed
      · rw [heq]
        obtain ⟨pushed, hpushed⟩ := conclude_frames { e with frames, mailbox := {} } q []
        exact hbelow.push hpushed
  | @silenced t q frames text hframes =>
    rcases hwaits.top_cases hframes with ⟨t', hf, rfl⟩ | hbelow
    · exact .inr ⟨rfl, .inr (by simp [Stage.listenerPanics, hframes])⟩
    · exact .inl hbelow

end

/-! ## The end of a method -/

/-- The first stage, from the given one on, that leaves no frame above `base`. -/
def Stage.backTo (s : Stage) (base : List Frame) (later : List Stage) : Option Stage :=
  (s :: later).find? fun s' => s'.response.engine.frames.length ≤ base.length

/-- The stage in which the method that is called in a stage comes to its end,
if the later stages contain it: the first to leave no frame of the method. -/
def Stage.ended (s : Stage) (later : List Stage) : Option Stage :=
  (s :: later).find? fun s' => s'.response.engine.frames.length ≤ s.before.frames.length

/-- Whatever clients and listener do meanwhile, the method that is called in a
stage ends with the given reply, unless a panic of the listener comes out of it. -/
def Stage.Answers (s : Stage) (later : List Stage) (reply : Reply) : Prop :=
  ∀ last, s.ended later = some last → last.response.reply = reply ∨ last.listenerPanics = true

/-- A response that gives the reply at once, or waits for the listener first. -/
def Response.Owes (r : Response) (base : List Frame) (sequel : Sequel) : Prop :=
  r.engine.frames = base ∧ sequel.reply? = some r.reply ∨
    ∃ t, r.engine.frames = .listening t sequel :: base

theorem owes_deliver {e : Engine} {sequel : Sequel} {reply : Reply}
    (h : sequel.reply? = some reply) (journal : List Entry) :
    (e.deliver sequel journal).Owes e.frames sequel := by
  rcases deliver_cases e sequel journal with ⟨t, rest, -, heq⟩ | ⟨-, heq⟩
  · exact .inr ⟨t, by rw [heq]⟩
  · obtain ⟨hreply, hengine⟩ := conclude_of_reply h e journal
    rw [heq]
    exact .inl ⟨by rw [hengine], by rw [hreply, h]⟩

section

variable {name : String} {policy : Policy} {audience : Audience} {start : Instant}
variable {schedule : List (Instant × Move)} {run : Run}

/-- Two stages follow each other when the later one finds the engine that the
earlier one leaves. -/
theorem engine_eq_getLast (hlife : life name policy audience start schedule = some run)
    {stages : List Stage} {s : Stage} (hstages : run.stages = stages ++ [s]) :
    run.engine = s.response.engine :=
  let ⟨_, _, _, _, hengine⟩ := life_eq_concat hlife hstages
  hengine

/-- A method that owes an answer waits until the frames below it have control
again, and then has given it. -/
theorem waits_or_backTo {e : Engine} (hrun : e.run schedule = some run)
    {before later : List Stage} {s : Stage} {base : List Frame} {sequel : Sequel} {reply : Reply}
    (hstages : run.stages = before ++ s :: later)
    (howes : s.response.Owes base sequel) (hreply : sequel.reply? = some reply) :
    s.backTo base later = none ∧ run.engine.Waits sequel base ∨
      ∃ last, s.backTo base later = some last ∧
        (last.response.reply = reply ∨ last.listenerPanics = true) := by
  induction later using List.reverseRecOn generalizing schedule run with
  | nil =>
    obtain ⟨first, rest, -, -, -, -, -, rfl⟩ := run_eq_concat hrun hstages
    rcases howes with ⟨hframes, hsame⟩ | ⟨t, hframes⟩
    · refine .inr ⟨s, ?_, .inl (Option.some.inj (hsame.symm.trans hreply))⟩
      simp [Stage.backTo, hframes]
    · exact .inl ⟨by simp [Stage.backTo, hframes], [], t, hframes⟩
  | append_singleton mid s' ih =>
    have hstages' : run.stages = (before ++ s :: mid) ++ [s'] := by simp [hstages]
    obtain ⟨first, rest, -, hfirst, hmid, hbefore, hvalid, rfl⟩ := run_eq_concat hrun hstages'
    have hback : s.backTo base (mid ++ [s']) = (s.backTo base mid).or
        ([s'].find? fun x => x.response.engine.frames.length ≤ base.length) := by
      rw [Stage.backTo, ← List.cons_append, List.find?_append]
      rfl
    rcases ih hfirst hmid with ⟨hnone, hwaits⟩ | ⟨last, hlast, hanswer⟩
    · rw [hback, hnone, Option.none_or]
      rw [hbefore] at hwaits
      rcases (step_took hvalid).waits hreply hwaits with hstill | ⟨hframes, hanswer⟩
      · refine .inl ⟨?_, hstill⟩
        obtain ⟨top, t, hframes⟩ := hstill
        simp only [List.find?_cons, List.find?_nil, hframes]
        rw [decide_eq_false]
        simp only [List.length_append, List.length_cons]
        omega
      · refine .inr ⟨s', ?_, hanswer⟩
        simp [hframes]
    · exact .inr ⟨last, by rw [hback, hlast, Option.some_or], hanswer⟩

/-- A method that owes an answer gives it, or the listener panics. -/
theorem answers_of_owes (hlife : life name policy audience start schedule = some run)
    {before later : List Stage} {s : Stage} {sequel : Sequel} {reply : Reply}
    (hstages : run.stages = before ++ s :: later)
    (howes : s.response.Owes s.before.frames sequel) (hreply : sequel.reply? = some reply) :
    s.Answers later reply := by
  obtain ⟨e, -, hrun⟩ := Option.bind_eq_some_iff.1 hlife
  intro last hlast
  rcases waits_or_backTo hrun hstages howes hreply with ⟨hnone, -⟩ | ⟨last', hlast', hanswer⟩
  · cases hnone.symm.trans hlast
  · cases hlast.symm.trans hlast'
    exact hanswer

/-! ## The answer of each method -/

/-- Does the stage query or reset the breaker, or report the end of a call? -/
def Stage.asks (s : Stage) : Bool :=
  decide (s.move = .query ∨ s.move = .reset) || (s.before.ending s.move).isSome

/-- The frames below the method that a stage calls.  An operation that ends has
no frame any more. -/
def Stage.base (s : Stage) : List Frame :=
  match s.move with
  | .finish _ | .panic _ => s.before.frames.tail
  | _ => s.before.frames

/-- Every query and reset and every end of a call comes back to its caller with
an answer of its own, once the listener has been told what there is to tell. -/
def Run.AnswersOwn (run : Run) : Prop :=
  ∀ before s later, run.stages = before ++ s :: later → s.asks = true →
    ∀ last, s.backTo s.base later = some last → s.move.IsAnswer last.response.reply

/-- The answer is settled when the method begins, if the clock can hold every
deadline. -/
theorem Took.owes {e : Engine} {now : Instant} {move : Move} {r : Response}
    (h : e.Took now move r) (hfits : e.policy.Fits now)
    (hasks : Stage.asks { before := e, now, move, response := r } = true) :
    ∃ sequel reply, sequel.reply? = some reply ∧ move.IsAnswer reply ∧
      r.Owes (Stage.base { before := e, now, move, response := r }) sequel := by
  cases h with
  | @queried c change heval view journal =>
    exact ⟨_, _, rfl, ⟨view, rfl⟩, owes_deliver (e := e.accept c change) rfl journal⟩
  | @reset c change hreset journal =>
    exact ⟨_, _, rfl, rfl, owes_deliver (e := e.accept c change) rfl journal⟩
  | refused heval hallow journal => cases hasks
  | admitted heval hallow journal => cases hasks
  | cut hmove heval => exact absurd heval (Circuit.evaluate_ne_overflow hfits _ _)
  | resetCut hreset => exact absurd hreset (Circuit.reset_ne_overflow hfits _ _)
  | @ended move t success e' sequel c c' change change' hends heval hsettles journal =>
    cases hends with
    | finish success hframes =>
      refine ⟨.answer (.completed success), _, rfl, rfl, ?_⟩
      rw [Stage.base, hframes]
      exact owes_deliver rfl journal
    | panic text hframes =>
      refine ⟨.unwind text, _, rfl, rfl, ?_⟩
      rw [Stage.base, hframes]
      exact owes_deliver rfl journal
    | abandon hmem => exact ⟨_, _, rfl, rfl, owes_deliver rfl journal⟩
  | endedCut hends heval journal => exact absurd heval (Circuit.evaluate_ne_overflow hfits _ _)
  | settledCut hends heval hcurrent hsettle journal =>
    exact absurd hsettle (Circuit.settle_ne_overflow hfits _ _ _)
  | resumed hmem => cases hasks
  | suspended hframes => cases hasks
  | heard hframes => cases hasks
  | silenced text hframes => simp [Stage.asks, ending, hframes] at hasks

theorem answersOwn_of_run {e : Engine} (hrun : e.run schedule = some run)
    (hfits : ∀ s ∈ run.stages, s.before.policy.Fits s.now)
    (hquiet : ∀ s ∈ run.stages, s.listenerPanics = false) : run.AnswersOwn := by
  intro before s later hstages hasks last hlast
  have hmem : s ∈ run.stages := by simp [hstages]
  obtain ⟨sequel, reply, hreply, hanswer, howes⟩ :=
    (step_took (valid_of_run hrun s hmem)).owes (hfits s hmem) hasks
  rcases waits_or_backTo hrun hstages howes hreply with ⟨hnone, -⟩ | ⟨last', hlast', hgiven⟩
  · cases hnone.symm.trans hlast
  · cases hlast.symm.trans hlast'
    have hlater : last ∈ run.stages := by
      rw [hstages]
      exact List.mem_append_right _ (List.mem_of_find?_eq_some hlast)
    rw [hgiven.resolve_right (by simp [hquiet last hlater])]
    exact hanswer

/-! ## A breaker whose listener has not panicked -/

/-- No transition is left over: while nobody holds the mailbox, nothing waits in
it.  A delivery may be under way. -/
def NoLeftovers (e : Engine) : Prop := e.mailbox.held = false → e.mailbox.pending = []

theorem NoLeftovers.of_mailbox_eq {e e' : Engine} (h : e.NoLeftovers)
    (hmailbox : e'.mailbox = e.mailbox) : e'.NoLeftovers := by
  unfold NoLeftovers
  rw [hmailbox]
  exact h

/-- A method that finds nothing to deliver, or a delivery under way, ends at
once. -/
theorem NoLeftovers.deliver_eq {e : Engine} (h : e.NoLeftovers) (sequel : Sequel)
    (journal : List Entry) : e.deliver sequel journal = e.conclude sequel journal := by
  rcases deliver_cases e sequel journal with ⟨t, rest, hmailbox, -⟩ | ⟨-, heq⟩
  · have hnil := h (by rw [hmailbox])
    rw [hmailbox] at hnil
    cases hnil
  · exact heq

theorem Hands.noLeftovers {e : Engine} {changes : List Transition} {move : Move} {r : Response}
    (h : e.Hands changes move r) (htended : e.Tended) (hleftovers : e.NoLeftovers) {now : Instant}
    (hquiet : Stage.listenerPanics { before := e, now, move, response := r } = false) :
    r.engine.NoLeftovers := by
  intro hfree
  cases h with
  | @delivers _ e' sequel hpending hheld hlisteners hsequel journal =>
    rcases deliver_cases e' sequel journal with ⟨t, rest, -, heq⟩ | ⟨hidle, heq⟩
    · rw [heq] at hfree
      cases hfree
    · have hmailbox := (conclude_quiet (e := e') hsequel journal).2.1
      rw [heq, hmailbox] at hfree ⊢
      rcases hidle with hbusy | hnil
      · cases hbusy.symm.trans hfree
      · exact hnil
  | @proceeds t sequel frames hframes hchanges hsequel =>
    rcases proceed_cases { e with frames } sequel [] with ⟨t', rest, hpending, heq⟩ | ⟨hnil, heq⟩
    · -- The listener has control, so the mailbox is held.
      rw [heq] at hfree
      unfold Tended at htended
      rw [hframes, listeners_listening, show e.mailbox.held = false from hfree] at htended
      cases htended
    · rw [heq, (conclude_quiet (e := { e with frames, mailbox := {} }) hsequel []).2.1]
  | breaksOff text hframes hchanges => simp [Stage.listenerPanics, hframes] at hquiet
  | stays hmove hchanges hmailbox hlisteners hreply =>
    exact hleftovers.of_mailbox_eq hmailbox hfree

theorem noLeftovers_of_life (hlife : life name policy audience start schedule = some run)
    (hfits : ∀ entry ∈ schedule, policy.Fits entry.1)
    (hquiet : ∀ s ∈ run.stages, s.listenerPanics = false) : run.engine.NoLeftovers := by
  refine (life_induction (motive := fun run => Orderly policy run ∧
    ((∀ s ∈ run.stages, s.listenerPanics = false) → run.engine.NoLeftovers)) ?_ ?_ hlife).2 hquiet
  · intro e hnew
    refine ⟨orderly_new hnew, fun _ _ => ?_⟩
    simp [(new?_eq_some hnew).2.2.1]
  · rintro run ⟨e, now, move, r⟩ ⟨horderly, hleftovers⟩ rfl hentry hvalid
    have hnow : policy.Fits now := hfits _ hentry
    refine ⟨horderly.snoc rfl hnow hvalid, fun hall => ?_⟩
    simp only [Run.snoc, List.forall_mem_append, List.forall_mem_singleton] at hall
    have hhands := (step_took hvalid).hands horderly.proper (horderly.policy_eq ▸ hnow)
    exact hhands.noLeftovers horderly.tended (hleftovers hall.1) hall.2

end

end Engine

end Breaker
