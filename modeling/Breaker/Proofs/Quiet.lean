import Breaker.Engine.Quiet
import Breaker.Proofs.Answer
import Breaker.Proofs.Methods

/-!
# Runs with a quiet listener

When the listener only returns, a method runs to its end in one go, and between
two moves all that was announced has been delivered.  A method does its work on
the circuit first, as far as it can be told of the circuit alone, and what is
left to do then is said by one equation.

* `Prepares` is a method that has done its work, and `prepares_of_step` says
  that every move is one, if it is no pause;
* `Prepares.stepQuiet_eq`: the listener is told of all changes, oldest first,
  and the method goes on;
* `Stage.Quietly` is what one move does to a breaker that has delivered all, and
  `AllDelivered.quietly` that every move does so;
* `lifeQuiet` is the run of a new breaker, and `lifeQuiet_induction` the
  induction over its stages.
-/

namespace Breaker

/-- Does an entry show what left the library: a transition that was handed to
the listener, or a refusal? -/
def Entry.isOutward : Entry → Bool
  | .told _ | .refused _ => true
  | _ => false

/-- The refusal that a reply brings, if it does. -/
def Reply.refusals : Reply → List Refusal
  | .refused r => [r]
  | _ => []

/-- How the method of a move may go on after its delivery. -/
inductive Move.Suits : Move → Sequel → Prop where
  | query (v : View) : Suits .query (.answer (.view v))
  | reset : Suits .reset (.answer .wasReset)
  | operate (t : Ticket) : Suits .call (.operate t)
  | refuse (r : Refusal) : Suits .call (.refuse r)
  | finish (success : Bool) : Suits (.finish success) (.answer (.completed success))
  | panic (text : String) : Suits (.panic text) (.unwind text)
  | abandon (t : Ticket) : Suits (.abandon t) (.answer .abandoned)

/-- A reply with which a move can come back. -/
inductive Move.Returns : Move → Reply → Prop where
  | query (v : View) : Returns .query (.view v)
  | reset : Returns .reset .wasReset
  | operating (t : Ticket) : Returns .call (.operating t)
  | refused (r : Refusal) : Returns .call (.refused r)
  | finish (success : Bool) : Returns (.finish success) (.completed success)
  | panic (text : String) : Returns (.panic text) (.panicked text)
  | abandon (t : Ticket) : Returns (.abandon t) .abandoned
  | suspend (t : Ticket) : Returns .suspend (.suspended t)
  | resume (t : Ticket) : Returns (.resume t) (.operating t)

theorem Move.Suits.proper {move : Move} {sequel : Sequel} (h : move.Suits sequel) :
    Engine.isProper sequel = true := by
  cases h <;> rfl

namespace Engine

variable {e e' : Engine} {now : Instant} {move : Move} {sequel : Sequel} {journal : List Entry}
variable {r : Response}

/-! ## What a breaker is built with -/

section

variable {name : String} {policy : Policy} {audience : Audience}

/-- What a breaker is built with, and keeps. -/
structure Built (name : String) (policy : Policy) (audience : Audience) (e : Engine) : Prop where
  name_eq : e.name = name
  policy_eq : e.policy = policy
  audience_eq : e.audience = audience

theorem built_self (e : Engine) : Built e.name e.policy e.audience e := ⟨rfl, rfl, rfl⟩

theorem built_new {start : Instant} (h : new? name policy audience start = some e) :
    Built name policy audience e := by
  obtain ⟨c, -, rfl⟩ := Option.map_eq_some_iff.1 h
  exact ⟨rfl, rfl, rfl⟩

theorem Built.conclude (h : Built name policy audience e) (sequel : Sequel)
    (journal : List Entry) : Built name policy audience (e.conclude sequel journal).engine := by
  cases sequel <;> exact ⟨h.name_eq, h.policy_eq, h.audience_eq⟩

theorem Built.deliver (h : Built name policy audience e) (sequel : Sequel)
    (journal : List Entry) : Built name policy audience (e.deliver sequel journal).engine := by
  rcases deliver_cases e sequel journal with ⟨t, rest, -, heq⟩ | ⟨-, heq⟩
  · rw [heq]
    exact ⟨h.name_eq, h.policy_eq, h.audience_eq⟩
  · rw [heq]
    exact h.conclude sequel journal

theorem Built.proceed (h : Built name policy audience e) (sequel : Sequel)
    (journal : List Entry) :
    Built name policy audience
      (e.follow sequel journal (Courier.proceed e.mailbox)).engine := by
  rcases proceed_cases e sequel journal with ⟨t, rest, -, heq⟩ | ⟨-, heq⟩
  · rw [heq]
    exact ⟨h.name_eq, h.policy_eq, h.audience_eq⟩
  · rw [heq]
    exact Built.conclude (e := { e with mailbox := {} }) ⟨h.name_eq, h.policy_eq, h.audience_eq⟩
      sequel journal

theorem Built.ends {t : Ticket} {success : Bool} (h : Built name policy audience e)
    (hends : e.Ends move t success e' sequel) : Built name policy audience e' := by
  cases hends <;> exact ⟨h.name_eq, h.policy_eq, h.audience_eq⟩

/-- No move changes what a breaker was built with. -/
theorem Took.built (h : e.Took now move r) (hbuilt : Built name policy audience e) :
    Built name policy audience r.engine := by
  have hsame : ∀ e'' : Engine, e''.name = e.name → e''.policy = e.policy →
      e''.audience = e.audience → Built name policy audience e'' := fun _ hname hpolicy haudience =>
    ⟨hname.trans hbuilt.name_eq, hpolicy.trans hbuilt.policy_eq,
      haudience.trans hbuilt.audience_eq⟩
  cases h with
  | queried heval view journal => exact (hsame (e.accept _ _) rfl rfl rfl).deliver _ journal
  | refused heval hallow journal => exact (hsame (e.accept _ _) rfl rfl rfl).deliver _ journal
  | admitted heval hallow journal =>
    apply Built.deliver
    exact hsame _ rfl rfl rfl
  | reset hreset journal => exact (hsame (e.accept _ _) rfl rfl rfl).deliver _ journal
  | cut hmove heval => exact hsame _ rfl rfl rfl
  | resetCut hreset => exact hsame _ rfl rfl rfl
  | @ended move t success e' sequel c c' change change' hends heval hsettles journal =>
    obtain ⟨hname, hpolicy, haudience⟩ := hbuilt.ends hends
    exact Built.deliver (e := (e'.accept c change).accept c' change')
      ⟨hname, hpolicy, haudience⟩ sequel journal
  | endedCut hends heval journal =>
    obtain ⟨hname, hpolicy, haudience⟩ := hbuilt.ends hends
    exact ⟨hname, hpolicy, haudience⟩
  | settledCut hends heval hcurrent hsettle journal =>
    obtain ⟨hname, hpolicy, haudience⟩ := hbuilt.ends hends
    exact ⟨hname, hpolicy, haudience⟩
  | resumed hmem => exact hsame _ rfl rfl rfl
  | suspended hframes => exact hsame _ rfl rfl rfl
  | @heard t sequel frames hframes =>
    exact Built.proceed (e := { e with frames }) (hsame _ rfl rfl rfl) sequel []
  | silenced text hframes => exact hsame _ rfl rfl rfl

theorem Took.name_eq (h : e.Took now move r) : r.engine.name = e.name :=
  (h.built (built_self e)).name_eq

theorem Built.settleQuiet {r : Response} (h : Built name policy audience r.engine) (fuel : Nat) :
    Built name policy audience (r.settleQuiet now fuel).engine := by
  induction fuel generalizing r with
  | zero => exact h
  | succ fuel ih =>
    unfold Response.settleQuiet
    split
    · split
      next next hstep => exact ih ((step_took hstep).built h)
      · exact h
    · exact h

theorem Built.stepQuiet (h : Built name policy audience e)
    (hquiet : e.stepQuiet now move = some r) : Built name policy audience r.engine := by
  obtain ⟨r, hstep, rfl⟩ := Option.map_eq_some_iff.1 hquiet
  exact ((step_took hstep).built h).settleQuiet _

end

/-! ## The method that waits -/

/-- A reply that hands over a transition leaves the method on top of the stack, to
wait for the listener. -/
def Response.OnTop (r : Response) : Prop :=
  ∀ t, r.reply = .listening t → ∃ sequel frames, r.engine.frames = .listening t sequel :: frames

theorem onTop_conclude (hproper : isProper sequel = true) (e : Engine) (journal : List Entry) :
    (e.conclude sequel journal).OnTop := by
  intro t hreply
  have htold := (conclude_quiet (e := e) hproper journal).1
  rw [hreply] at htold
  cases htold

theorem onTop_deliver (hproper : isProper sequel = true) (e : Engine) (journal : List Entry) :
    (e.deliver sequel journal).OnTop := by
  rcases deliver_cases e sequel journal with ⟨t, rest, -, heq⟩ | ⟨-, heq⟩
  · rw [heq]
    rintro _ ⟨rfl⟩
    exact ⟨sequel, e.frames, rfl⟩
  · rw [heq]
    exact onTop_conclude hproper e journal

theorem onTop_proceed (hproper : isProper sequel = true) (e : Engine) (journal : List Entry) :
    (e.follow sequel journal (Courier.proceed e.mailbox)).OnTop := by
  rcases proceed_cases e sequel journal with ⟨t, rest, -, heq⟩ | ⟨-, heq⟩
  · rw [heq]
    rintro _ ⟨rfl⟩
    exact ⟨sequel, e.frames, rfl⟩
  · rw [heq]
    exact onTop_conclude hproper _ journal

theorem Took.onTop (h : e.Took now move r) (hproper : e.Proper) : r.OnTop := by
  cases h with
  | queried heval view journal => exact onTop_deliver rfl _ journal
  | refused heval hallow journal => exact onTop_deliver rfl _ journal
  | admitted heval hallow journal => exact onTop_deliver rfl _ journal
  | reset hreset journal => exact onTop_deliver rfl _ journal
  | ended hends heval hsettles journal =>
    exact onTop_deliver (hends.proper hproper).2 _ journal
  | @heard t sequel frames hframes =>
    exact onTop_proceed (hproper t sequel (hframes ▸ List.mem_cons_self)) { e with frames } []
  | cut hmove heval => nofun
  | resetCut hreset => nofun
  | endedCut hends heval journal => nofun
  | settledCut hends heval hcurrent hsettle journal => nofun
  | resumed hmem => nofun
  | suspended hframes => nofun
  | silenced text hframes => nofun

/-! ## The work of a method -/

/-- The method of a move has done its work, and is about to deliver from `e'`. -/
structure Prepares (e : Engine) (now : Instant) (move : Move) (e' : Engine) (sequel : Sequel)
    (journal : List Entry) : Prop where
  step_eq : e.step now move = some (e'.deliver sequel journal)
  /-- The changes of phase are put behind what waits in the mailbox. -/
  pending_eq : ∀ r : Response, r.engine.circuit = e'.circuit → e'.mailbox.pending =
    e.mailbox.pending ++ Stage.changes { before := e, now, move, response := r }
  held_eq : e'.mailbox.held = e.mailbox.held
  listeners_eq : listeners e'.frames = listeners e.frames
  suits : move.Suits sequel
  inward : ∀ entry ∈ journal, entry.isOutward = false

theorem noted_inward (change : Option Transition) :
    ∀ entry ∈ noted change, entry.isOutward = false := by
  simp only [noted, List.mem_map]
  rintro _ ⟨t, -, rfl⟩
  rfl

theorem cutNote_inward (e : Engine) (move : Move) :
    ∀ entry ∈ e.cutNote move, entry.isOutward = false := by
  cases move <;> simp [cutNote, Entry.isOutward]

/-- A method that has changed the phase twice at most. -/
theorem prepares_of_changes {change change' : Option Transition} {c : Circuit}
    (hstep : e.step now move = some (e'.deliver sequel journal))
    (hevaluated : e.evaluated now move = c) (hchange : change = e.circuit.phase.change c.phase)
    (hchange' : change' = c.phase.change e'.circuit.phase)
    (hmailbox : e'.mailbox = (e.mailbox.push change).push change')
    (hlisteners : listeners e'.frames = listeners e.frames) (hsuits : move.Suits sequel)
    (hinward : ∀ entry ∈ journal, entry.isOutward = false) :
    e.Prepares now move e' sequel journal where
  step_eq := hstep
  pending_eq _ := pending_of_changes e' change change' hevaluated hchange hchange' hmailbox
  held_eq := by rw [hmailbox, Mailbox.held_push, Mailbox.held_push]
  listeners_eq := hlisteners
  suits := hsuits
  inward := hinward

theorem prepares_query (hfits : e.policy.Fits now) :
    ∃ e' v journal, e.Prepares now .query e' (.answer (.view v)) journal := by
  cases heval : e.circuit.evaluate e.policy now with
  | overflow c => exact absurd heval (Circuit.evaluate_ne_overflow hfits _ _)
  | done c change =>
    exact ⟨_, _, _, prepares_of_changes (congrArg some (query_of_done heval))
      (evaluated_eq rfl heval) (Circuit.evaluate_change heval) (Phase.change_self _).symm
      (Mailbox.push_none _).symm rfl (.query _) (noted_inward change)⟩

theorem prepares_reset (hfits : e.policy.Fits now) :
    ∃ e' journal, e.Prepares now .reset e' (.answer .wasReset) journal := by
  cases hreset : e.circuit.reset e.policy now with
  | overflow c => exact absurd hreset (Circuit.reset_ne_overflow hfits _ _)
  | done c change =>
    -- Nothing is evaluated first, so that the phase changes once at most.
    have hpush : e.mailbox.push change = (e.mailbox.push none).push change := by
      rw [Mailbox.push_none]
    refine ⟨_, _, prepares_of_changes (congrArg some (reset_of_done hreset)) rfl
      (Phase.change_self _).symm ?_ hpush rfl .reset ?_⟩
    · rw [Circuit.reset_eq_turn] at hreset
      exact Circuit.turn_eq_done hreset
    · rw [List.forall_mem_append, List.forall_mem_singleton]
      exact ⟨noted_inward change, rfl⟩

theorem prepares_call (hfits : e.policy.Fits now) :
    ∃ e' sequel journal, e.Prepares now .call e' sequel journal := by
  cases heval : e.circuit.evaluate e.policy now with
  | overflow c => exact absurd heval (Circuit.evaluate_ne_overflow hfits _ _)
  | done c change =>
    have hchange := Circuit.evaluate_change heval
    cases hallow : c.allow e.policy with
    | error refusal =>
      exact ⟨_, _, _, prepares_of_changes (congrArg some (call_of_error heval hallow))
        (evaluated_eq rfl heval) hchange (Phase.change_self _).symm (Mailbox.push_none _).symm rfl
        (.refuse refusal) (noted_inward change)⟩
    | ok c' =>
      have hphase : none = c.phase.change c'.phase := by
        rw [Circuit.allow_eq_ok hallow, Phase.change_self]
      refine ⟨_, _, _, prepares_of_changes (congrArg some (call_of_ok heval hallow))
        (evaluated_eq rfl heval) hchange hphase (Mailbox.push_none _).symm rfl (.operate _) ?_⟩
      rw [List.forall_mem_append, List.forall_mem_singleton]
      exact ⟨noted_inward change, rfl⟩

theorem Ends.suits {t : Ticket} {success : Bool} (h : e.Ends move t success e' sequel) :
    move.Suits sequel := by
  cases h with
  | finish success hframes => exact .finish success
  | panic text hframes => exact .panic text
  | abandon hmem => exact .abandon t

theorem prepares_end {t : Ticket} {success : Bool} (hfits : e.policy.Fits now)
    (hends : e.Ends move t success e' sequel) :
    ∃ e'' journal, e.Prepares now move e'' sequel journal := by
  have hcircuit : e'.circuit = e.circuit := by cases hends <;> rfl
  have hpolicy := hends.policy_eq
  obtain ⟨hmailbox, hlisteners⟩ := hends.listeners_eq
  have hstep := hends.step_eq now
  cases heval : e.circuit.evaluate e.policy now with
  | overflow c => exact absurd heval (Circuit.evaluate_ne_overflow hfits _ _)
  | done c change =>
    have hevaluated := hends.evaluated_eq heval
    have hchange := Circuit.evaluate_change heval
    rw [← hcircuit, ← hpolicy] at heval
    by_cases hcurrent : t.generation = c.generation
    · cases hsettle : c.settle e'.policy now success with
      | overflow c' =>
        exact absurd hsettle (Circuit.settle_ne_overflow (hpolicy ▸ hfits) _ _ _)
      | done c' change' =>
        refine ⟨_, _, prepares_of_changes
          (hstep.trans (report_of_current _ heval hcurrent hsettle)) hevaluated hchange
          (Circuit.settle_change hsettle) ?_ hlisteners hends.suits ?_⟩
        · rw [← hmailbox]
          rfl
        · simp only [List.forall_mem_append, List.forall_mem_singleton]
          exact ⟨⟨⟨cutNote_inward e move, noted_inward change⟩, rfl⟩, noted_inward change'⟩
    · refine ⟨_, _, prepares_of_changes (hstep.trans (report_of_stale _ heval hcurrent))
        hevaluated hchange (Phase.change_self _).symm ?_ hlisteners hends.suits ?_⟩
      · rw [← hmailbox, Mailbox.push_none]
        rfl
      · simp only [List.forall_mem_append, List.forall_mem_singleton]
        exact ⟨⟨cutNote_inward e move, noted_inward change⟩, rfl⟩

/-- A move outside the listener is a method or a pause. -/
theorem prepares_of_step (hfits : e.policy.Fits now) (houtside : listeners e.frames = 0)
    (hstep : e.step now move = some r) :
    (∃ e' sequel journal, e.Prepares now move e' sequel journal) ∨ e.Pauses move r := by
  cases step_outside houtside hstep with
  | query =>
    obtain ⟨e', v, journal, h⟩ := prepares_query hfits
    exact .inl ⟨e', _, journal, h⟩
  | reset =>
    obtain ⟨e', journal, h⟩ := prepares_reset hfits
    exact .inl ⟨e', _, journal, h⟩
  | call => exact .inl (prepares_call hfits)
  | ends hends =>
    obtain ⟨e', journal, h⟩ := prepares_end hfits hends
    exact .inl ⟨e', _, journal, h⟩
  | pauses h => exact .inr h

/-! ## The delivery to a quiet listener -/

theorem conclude_append (e : Engine) (sequel : Sequel) (journal more : List Entry) :
    { e.conclude sequel more with journal := journal ++ (e.conclude sequel more).journal } =
      e.conclude sequel (journal ++ more) := by
  cases sequel <;> simp [conclude]

/-- A quiet listener leaves the circuit alone. -/
theorem circuit_settleQuiet (fuel : Nat) (r : Response) :
    (r.settleQuiet now fuel).engine.circuit = r.engine.circuit := by
  induction fuel generalizing r with
  | zero => rfl
  | succ fuel ih =>
    rw [Response.settleQuiet]
    split
    · split
      next next hstep => rw [ih, circuit_of_heard hstep]
      · rfl
    · rfl

/-- The method waits for the listener, which returns until there is nothing left
to tell it. -/
theorem settleQuiet_listening (e : Engine) (sequel : Sequel) (t : Transition)
    (rest : List Transition) (journal : List Entry) :
    Response.settleQuiet now (rest.length + 1)
        { engine :=
            { e with
              mailbox := { pending := rest, held := true }
              frames := .listening t sequel :: e.frames }
          reply := .listening t
          journal } =
      { e with mailbox := {} }.conclude sequel (journal ++ rest.map Entry.told) := by
  induction rest generalizing t journal with
  | nil =>
    simp only [Response.settleQuiet, step, Courier.proceed_nil, follow_gone]
    rw [conclude_append]
    rfl
  | cons t' rest ih =>
    rw [List.length_cons, Response.settleQuiet]
    simp only [step, Courier.proceed_cons, follow]
    rw [List.nil_append, ih, List.map_cons, List.append_assoc, List.singleton_append]

/-- What a quiet listener makes of a delivery. -/
theorem settleQuiet_deliver (hfree : e.mailbox.held = false) (hproper : isProper sequel = true)
    (journal : List Entry) :
    (e.deliver sequel journal).settleQuiet now
        ((e.deliver sequel journal).engine.mailbox.pending.length + 1) =
      { e with mailbox := {} }.conclude sequel (journal ++ e.mailbox.pending.map Entry.told) := by
  rcases deliver_cases e sequel journal with ⟨t, rest, hmailbox, heq⟩ | ⟨hnothing, heq⟩
  · rw [heq, settleQuiet_listening e sequel t rest, hmailbox, List.map_cons,
      List.append_assoc, List.singleton_append]
  · have hpending : e.mailbox.pending = [] := by
      rcases hnothing with hheld | hpending
      · exact absurd hheld (by simp [hfree])
      · exact hpending
    have hempty : e.mailbox = {} := by
      cases hmailbox : e.mailbox
      simp_all
    have hsame : ({ e with mailbox := {} } : Engine) = e := by rw [← hempty]
    rw [heq, hpending, hsame, List.map_nil, List.append_nil]
    obtain ⟨htold, -⟩ := conclude_quiet (e := e) hproper journal
    unfold Response.settleQuiet
    split
    next t hreply => rw [hreply] at htold; cases htold
    · rfl

/-- A method runs to its end in one go: the listener is told of all that waits,
oldest first, and the method goes on. -/
theorem stepQuiet_of_deliver (hstep : e.step now move = some (e'.deliver sequel journal))
    (hfree : e'.mailbox.held = false) (hproper : isProper sequel = true) :
    e.stepQuiet now move =
      some ({ e' with mailbox := {} }.conclude sequel
        (journal ++ e'.mailbox.pending.map Entry.told)) := by
  rw [stepQuiet, hstep, Option.map_some, settleQuiet_deliver hfree hproper]

theorem Prepares.stepQuiet_eq (h : e.Prepares now move e' sequel journal)
    (hfree : e.mailbox.held = false) :
    e.stepQuiet now move =
      some ({ e' with mailbox := {} }.conclude sequel
        (journal ++ e'.mailbox.pending.map Entry.told)) :=
  stepQuiet_of_deliver h.step_eq (h.held_eq.trans hfree) h.suits.proper

/-- Queries and resets always come back, also while another method is under way
or something is left to deliver. -/
theorem stepQuiet_asked (hfits : e.policy.Fits now) (hmove : move = .query ∨ move = .reset) :
    ∃ r, e.stepQuiet now move = some r ∧ move.Returns r.reply := by
  have hprepares : ∃ e' reply journal,
      e.Prepares now move e' (.answer reply) journal ∧ move.Returns reply := by
    rcases hmove with rfl | rfl
    · obtain ⟨e', v, journal, h⟩ := prepares_query (e := e) hfits
      exact ⟨e', .view v, journal, h, .query v⟩
    · obtain ⟨e', journal, h⟩ := prepares_reset (e := e) hfits
      exact ⟨e', .wasReset, journal, h, .reset⟩
  obtain ⟨e', reply, journal, h, hreturns⟩ := hprepares
  cases hheld : e.mailbox.held with
  | false => exact ⟨_, h.stepQuiet_eq hheld, hreturns⟩
  | true =>
    -- Another delivery is under way, and takes what there is to tell.
    have hconclude : e'.deliver (.answer reply) journal = { engine := e', reply, journal } := by
      rcases deliver_cases e' (.answer reply) journal with ⟨t, rest, hmailbox, -⟩ | ⟨-, heq⟩
      · have hheld' := h.held_eq
        rw [hmailbox, hheld] at hheld'
        cases hheld'
      · exact heq
    have hquiet : e.stepQuiet now move = some { engine := e', reply, journal } := by
      rw [stepQuiet, h.step_eq, hconclude]
      cases hreturns <;> rfl
    exact ⟨_, hquiet, hreturns⟩

/-- A pause leaves nothing to settle. -/
theorem Pauses.stepQuiet_eq (h : e.Pauses move r) (hstep : e.step now move = some r) :
    e.stepQuiet now move = some r := by
  rw [stepQuiet, hstep, Option.map_some]
  obtain ⟨t, ⟨-, hreply⟩ | ⟨-, hreply⟩⟩ := h.reply_eq <;>
    simp only [Response.settleQuiet, hreply]

/-! ## One move -/

/-- The response is the one that the engine gives when the listener is quiet. -/
def Stage.ValidQuiet (s : Stage) : Prop := s.before.stepQuiet s.now s.move = some s.response

/-- What a move does to a breaker that has delivered all. -/
structure Stage.Quietly (s : Stage) : Prop where
  delivered : s.response.engine.AllDelivered
  /-- The move does not come back before it is done. -/
  returns : s.move.Returns s.response.reply
  /-- Only an operation that runs can end. -/
  finishes : ∀ success, s.move = .finish success →
    ∃ t, s.before.ending s.move = some (t, success)
  /-- What leaves the library are all changes, oldest first, and then the refusal
  that the reply brings. -/
  outward : s.response.journal.filter Entry.isOutward =
    s.changes.map Entry.told ++ s.response.reply.refusals.map Entry.refused

theorem ending_of_finish {success : Bool} (hstep : e.step now (.finish success) = some r) :
    ∃ t, e.ending (.finish success) = some (t, success) := by
  simp only [step] at hstep
  split at hstep
  next t frames hframes => exact ⟨t, by simp [ending, hframes]⟩
  · cases hstep

/-- What stands between the delivery and the return of a method. -/
theorem conclude_of_suits (h : move.Suits sequel) (e : Engine) (journal : List Entry) :
    move.Returns (e.conclude sequel journal).reply ∧
      (e.conclude sequel journal).journal.filter Entry.isOutward =
        journal.filter Entry.isOutward ++
          (e.conclude sequel journal).reply.refusals.map Entry.refused := by
  cases h <;> simp [conclude, Reply.refusals, Entry.isOutward] <;> constructor

theorem filter_isOutward_told (ts : List Transition) :
    (ts.map Entry.told).filter Entry.isOutward = ts.map Entry.told := by
  rw [List.filter_eq_self]
  simp [Entry.isOutward]

theorem Prepares.quietly (h : e.Prepares now move e' sequel journal) (hdelivered : e.AllDelivered)
    (hquiet : e.stepQuiet now move = some r) :
    Stage.Quietly { before := e, now, move, response := r } := by
  have hwhole := h.stepQuiet_eq (by rw [hdelivered.mailbox_eq])
  generalize hall : journal ++ e'.mailbox.pending.map Entry.told = all at hwhole
  obtain rfl := Option.some.inj (hquiet.symm.trans hwhole)
  obtain ⟨-, hmailbox, hlisteners⟩ :=
    conclude_quiet (e := { e' with mailbox := {} }) h.suits.proper all
  have hcircuit := (conclude_keeps { e' with mailbox := {} } sequel all).1
  obtain ⟨hreturns, houtward⟩ := conclude_of_suits h.suits { e' with mailbox := {} } all
  have hchanges := h.pending_eq _ hcircuit
  rw [hdelivered.mailbox_eq, List.nil_append] at hchanges
  have hinward : journal.filter Entry.isOutward = [] :=
    List.filter_eq_nil_iff.2 fun entry hmem => by simp [h.inward entry hmem]
  have hshown : all.filter Entry.isOutward = e'.mailbox.pending.map Entry.told := by
    rw [← hall, List.filter_append, hinward, List.nil_append, filter_isOutward_told]
  exact
    { delivered := ⟨hmailbox, hlisteners.trans (h.listeners_eq.trans hdelivered.outside)⟩
      returns := hreturns
      finishes := by
        rintro success rfl
        exact ending_of_finish h.step_eq
      outward := by rw [houtward, hshown, ← hchanges] }

theorem Pauses.quietly (h : e.Pauses move r) (hdelivered : e.AllDelivered) :
    Stage.Quietly { before := e, now, move, response := r } := by
  obtain ⟨⟨t, hpause⟩, ⟨frames, suspended, hengine, hlisteners⟩, hjournal⟩ := h
  have hcircuit : r.engine.circuit = e.circuit := by rw [hengine]
  have hchanges : Stage.changes { before := e, now, move, response := r } = [] := by
    rcases hpause with ⟨rfl, -⟩ | ⟨rfl, -⟩ <;> exact changes_eq_nil rfl hcircuit
  have hrefusals : r.reply.refusals = [] := by
    rcases hpause with ⟨-, hreply⟩ | ⟨-, hreply⟩ <;> rw [hreply] <;> rfl
  exact
    { delivered := by
        rw [hengine]
        exact ⟨hdelivered.mailbox_eq, hlisteners.trans hdelivered.outside⟩
      returns := by
        rcases hpause with ⟨rfl, hreply⟩ | ⟨rfl, hreply⟩
        · exact hreply ▸ .suspend t
        · exact hreply ▸ .resume t
      finishes := by
        rintro success rfl
        rcases hpause with ⟨hmove, -⟩ | ⟨hmove, -⟩ <;> cases hmove
      outward := by
        rw [hjournal, hchanges, hrefusals]
        rfl }

/-- Every move of a breaker that has delivered all is done when it comes back, and
by then has delivered its own changes too. -/
theorem AllDelivered.quietly {s : Stage} (hdelivered : s.before.AllDelivered)
    (hfits : s.before.policy.Fits s.now) (hvalid : s.ValidQuiet) : s.Quietly := by
  obtain ⟨r, hstep, -⟩ := Option.map_eq_some_iff.1 hvalid
  rcases prepares_of_step hfits hdelivered.outside hstep with ⟨e', sequel, journal, h⟩ | h
  · exact h.quietly hdelivered hvalid
  · have hsame := h.stepQuiet_eq hstep
    rw [Stage.ValidQuiet, hsame] at hvalid
    cases hvalid
    exact h.quietly hdelivered

/-! ## Runs -/

/-- The run with one more move. -/
def Run.extendQuiet (run : Run) (entry : Instant × Move) : Option Run :=
  (run.engine.stepQuiet entry.1 entry.2).map fun response =>
    run.snoc { before := run.engine, now := entry.1, move := entry.2, response }

/-- The run that a schedule makes when the listener is quiet, if every move of
it makes sense where control stands. -/
def runQuiet (e : Engine) (schedule : List (Instant × Move)) : Option Run :=
  schedule.foldlM Run.extendQuiet { engine := e }

section

variable {name : String} {policy : Policy} {audience : Audience} {start : Instant}
variable {schedule : List (Instant × Move)} {run : Run}

/-- The run of a new breaker under a schedule, when the listener is quiet. -/
def lifeQuiet (name : String) (policy : Policy) (audience : Audience) (start : Instant)
    (schedule : List (Instant × Move)) : Option Run :=
  (new? name policy audience start).bind fun e => e.runQuiet schedule

/-- A breaker between two moves: all is delivered, and it is as it was built. -/
structure Resting (name : String) (policy : Policy) (audience : Audience) (e : Engine) : Prop
    extends Built name policy audience e where
  delivered : e.AllDelivered

theorem resting_new (h : new? name policy audience start = some e) :
    Resting name policy audience e where
  toBuilt := built_new h
  delivered := by
    obtain ⟨hframes, -, hmailbox, -⟩ := new?_eq_some h
    exact ⟨hmailbox, by rw [hframes]; rfl⟩

/-- A move leaves a resting breaker at rest. -/
theorem Resting.next {s : Stage} (h : Resting name policy audience s.before)
    (hfits : policy.Fits s.now) (hvalid : s.ValidQuiet) :
    Resting name policy audience s.response.engine ∧ s.Quietly := by
  have hs := h.delivered.quietly (h.policy_eq.symm ▸ hfits) hvalid
  exact ⟨⟨h.toBuilt.stepQuiet hvalid, hs.delivered⟩, hs⟩

/-- Induction over the stages of a life with a quiet listener. -/
theorem lifeQuiet_induction {motive : Run → Prop}
    (first : ∀ e, new? name policy audience start = some e → motive { engine := e })
    (next : ∀ (run : Run) (s : Stage), motive run → run.engine = s.before →
      Resting name policy audience s.before → s.Quietly → motive (run.snoc s))
    (hfits : ∀ entry ∈ schedule, policy.Fits entry.1)
    (h : lifeQuiet name policy audience start schedule = some run) :
    Resting name policy audience run.engine ∧ motive run := by
  obtain ⟨e, hnew, hrun⟩ := Option.bind_eq_some_iff.1 h
  refine foldlM_induction
    (motive := fun run => Resting name policy audience run.engine ∧ motive run)
    ⟨resting_new hnew, first e hnew⟩ ?_ hrun
  rintro run entry after ⟨hresting, hmotive⟩ hentry hextend
  obtain ⟨response, hquiet, rfl⟩ := Option.map_eq_some_iff.1 hextend
  obtain ⟨hafter, hs⟩ := Resting.next
    (s := { before := run.engine, now := entry.1, move := entry.2, response })
    hresting (hfits entry hentry) hquiet
  exact ⟨hafter, next run _ hmotive rfl hresting hs⟩

/-- A breaker is at rest after every move of a life. -/
theorem resting_of_lifeQuiet (hfits : ∀ entry ∈ schedule, policy.Fits entry.1)
    (h : lifeQuiet name policy audience start schedule = some run) :
    Resting name policy audience run.engine :=
  (lifeQuiet_induction (motive := fun _ => True) (fun _ _ => trivial)
    (fun _ _ _ _ _ _ => trivial) hfits h).1

/-- The last move of a run comes after the run of the others. -/
theorem runQuiet_concat (e : Engine) (rest : List (Instant × Move)) (entry : Instant × Move) :
    e.runQuiet (rest ++ [entry]) = (e.runQuiet rest).bind (·.extendQuiet entry) := by
  simp only [runQuiet, List.foldlM_append, List.foldlM_cons, List.foldlM_nil, bind_pure]
  rfl

/-- A run goes on with every move that makes sense. -/
theorem runQuiet_snoc {now : Instant} {move : Move} {r : Response}
    (h : e.runQuiet schedule = some run) (hquiet : run.engine.stepQuiet now move = some r) :
    e.runQuiet (schedule ++ [(now, move)]) =
      some (run.snoc { before := run.engine, now, move, response := r }) := by
  rw [runQuiet_concat, h, Option.bind_some, Run.extendQuiet, hquiet, Option.map_some]

/-- The last move of a life comes after the life of the others. -/
theorem lifeQuiet_concat (name : String) (policy : Policy) (audience : Audience)
    (start : Instant) (rest : List (Instant × Move)) (entry : Instant × Move) :
    lifeQuiet name policy audience start (rest ++ [entry]) =
      (lifeQuiet name policy audience start rest).bind (·.extendQuiet entry) := by
  simp only [lifeQuiet, runQuiet_concat, Option.bind_assoc]

/-- A life goes on with every move that makes sense. -/
theorem lifeQuiet_snoc {now : Instant} {move : Move} {r : Response}
    (h : lifeQuiet name policy audience start schedule = some run)
    (hquiet : run.engine.stepQuiet now move = some r) :
    lifeQuiet name policy audience start (schedule ++ [(now, move)]) =
      some (run.snoc { before := run.engine, now, move, response := r }) := by
  rw [lifeQuiet_concat, h, Option.bind_some, Run.extendQuiet, hquiet, Option.map_some]

end

end Engine

end Breaker
