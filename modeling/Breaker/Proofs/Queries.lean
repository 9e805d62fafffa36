import Breaker.Proofs.Host
import Breaker.Proofs.Renewal

/-!
# Queries at one instant

A query is not innocent: it applies what is due, so it may roll a window over or
turn an open circuit half open, and tell the listener.  But whatever a move does
with the circuit begins in the same way, and what has been applied at an instant
is not due again at that instant.  So the query does no more than what the move
would have done itself.

* `Circuit.evaluate_again`: an evaluated circuit stays as it is.  It is here that
  windows must have a length; one without is over at the instant it begins.
* `Engine.GoesOn`: what a method does once the circuit is evaluated, however it
  came to be so.  `exists_goesOn` finds it for every move that evaluates.
* `Engine.Asked`: a breaker that has been asked any number of times at one
  instant, and what it has told the listener so far.
* `Engine.Paused`: calls are suspended and resumed alike, however the
  circuit stands.
* `queries_absorbed` is the result.
-/

namespace Breaker

namespace Circuit

variable {policy : Policy} {now : Instant} {c c' : Circuit} {change : Option Transition}

/-- Nothing is due any more once the circuit has been evaluated. -/
theorem isDue_of_evaluate (hwindow : 0 < policy.closedWindow) (hfits : policy.Fits now)
    (heval : c.evaluate policy now = .done c' change) : c'.isDue now = false := by
  rw [evaluate_eq_turn] at heval
  cases hlapse : c.lapse now with
  | none =>
    rw [hlapse, turn_none] at heval
    cases heval
    unfold lapse at hlapse
    split at hlapse
    · cases hlapse
    · rename_i hdue
      exact Bool.eq_false_of_not_eq_true hdue
  | some phase =>
    have hphase := phase_turn policy now c (some phase)
    have hexpiry := expiry_turn hfits phase c
    rw [← hlapse, heval] at hphase hexpiry
    rw [hlapse, Option.getD_some] at hphase
    change c'.phase = phase at hphase
    change c'.expiry = (policy.period phase).map (now + ·) at hexpiry
    -- Time alone starts closed and half-open periods, and none that is over at once.
    have hclosed : phase = .closed ∨ phase = .halfOpen := by
      unfold lapse at hlapse
      split at hlapse
      · split at hlapse <;> cases hlapse
        · exact .inl rfl
        · exact .inr rfl
      · cases hlapse
    rcases hclosed with rfl | rfl
    · have hlater : ¬ now + policy.closedWindow ≤ now :=
        Nat.not_le_of_lt (Nat.lt_add_of_pos_right hwindow)
      simp only [isDue, hphase, hexpiry, Policy.period, Option.map_some]
      exact decide_eq_false hlater
    · simp [isDue, hphase]

/-- Evaluating a second time at the same instant changes nothing. -/
theorem evaluate_again (hwindow : 0 < policy.closedWindow) (hfits : policy.Fits now)
    (heval : c.evaluate policy now = .done c' change) :
    c'.evaluate policy now = .done c' none := by
  have hdue := isDue_of_evaluate hwindow hfits heval
  rw [evaluate_eq_turn, lapse, if_neg (by simp [hdue]), turn_none]

end Circuit

namespace Engine

variable {e e' : Engine} {now : Instant} {move : Move} {sequel : Sequel} {r : Response}
variable {c : Circuit} {change change' : Option Transition} {journal : List Entry}

/-! ## What a journal tells -/

theorem tellings_append (journal more : List Entry) :
    tellings (journal ++ more) = tellings journal ++ tellings more :=
  List.filterMap_append

theorem tellings_told (ts : List Transition) : tellings (ts.map Entry.told) = ts := by
  rw [tellings, List.filterMap_map]
  exact List.filterMap_some

theorem tellings_inward (h : ∀ entry ∈ journal, entry.isOutward = false) :
    tellings journal = [] := by
  rw [tellings, List.filterMap_eq_nil_iff]
  intro entry hmem
  have hinward := h entry hmem
  cases entry <;> first | rfl | cases hinward

/-- The end of a method tells the listener nothing. -/
theorem tellings_conclude (h : move.Suits sequel) (e : Engine) (journal : List Entry) :
    tellings (e.conclude sequel journal).journal = tellings journal := by
  cases h <;> simp [conclude, tellings]

/-- All that the listener was told in a run whose listener is quiet. -/
def Run.heard (run : Run) : List Transition :=
  run.stages.flatMap fun s => tellings s.response.journal

theorem Run.heard_snoc (run : Run) (s : Stage) :
    (run.snoc s).heard = run.heard ++ tellings s.response.journal := by
  simp [Run.heard, Run.snoc, List.flatMap_append]

/-! ## After the evaluation -/

/-- Once the circuit is evaluated to `c`, the method of the move goes on to
deliver from `e'`, behind the change `change'` that it makes itself.  How the
circuit stood before makes no difference, but for the change `δ` that was due. -/
structure GoesOn (e : Engine) (now : Instant) (move : Move) (c : Circuit) (e' : Engine)
    (sequel : Sequel) (change' : Option Transition) : Prop where
  suits : move.Suits sequel
  step_eq : ∀ c₀ δ, c₀.evaluate e.policy now = .done c δ → ∃ journal,
    (∀ entry ∈ journal, entry.isOutward = false) ∧
      ({ e with circuit := c₀ } : Engine).step now move =
        some (({ e' with mailbox := (e.mailbox.push δ).push change' } : Engine).deliver sequel
          journal)

theorem goesOn_query (e : Engine) (now : Instant) (c : Circuit) :
    e.GoesOn now .query c { e with circuit := c } (.answer (.view c.view)) none where
  suits := .query c.view
  step_eq c₀ δ heval := by
    refine ⟨noted δ, noted_inward δ, ?_⟩
    rw [Mailbox.push_none]
    exact congrArg some (query_of_done (e := { e with circuit := c₀ }) heval)

theorem exists_goesOn_call (e : Engine) (now : Instant) (c : Circuit) :
    ∃ e' sequel, e.GoesOn now .call c e' sequel none := by
  cases hallow : c.allow e.policy with
  | error refusal =>
    refine ⟨{ e with circuit := c }, .refuse refusal, .refuse refusal, fun c₀ δ heval => ?_⟩
    refine ⟨noted δ, noted_inward δ, ?_⟩
    rw [Mailbox.push_none]
    exact congrArg some (call_of_error (e := { e with circuit := c₀ }) heval hallow)
  | ok c' =>
    refine ⟨{ e with circuit := c', nextSerial := e.nextSerial + 1 },
      .operate (e.nextTicket c'), .operate _, fun c₀ δ heval => ?_⟩
    refine ⟨noted δ ++ [.admitted (e.nextTicket c')], ?_, ?_⟩
    · rw [List.forall_mem_append, List.forall_mem_singleton]
      exact ⟨noted_inward δ, rfl⟩
    · rw [Mailbox.push_none]
      exact congrArg some (call_of_ok (e := { e with circuit := c₀ }) heval hallow)

/-- Which call ends, and how, does not depend on the circuit. -/
theorem Ends.withCircuit {t : Ticket} {success : Bool} (h : e.Ends move t success e' sequel)
    (c : Circuit) :
    ({ e with circuit := c } : Engine).Ends move t success { e' with circuit := c } sequel := by
  cases h with
  | finish success hframes => exact .finish success hframes
  | panic text hframes => exact .panic text hframes
  | abandon hmem => exact .abandon hmem

theorem exists_goesOn_end {t : Ticket} {success : Bool} (hfits : e.policy.Fits now)
    (hends : e.Ends move t success e' sequel) (c : Circuit) :
    ∃ e'' change', e.GoesOn now move c e'' sequel change' := by
  have hpolicy := hends.policy_eq
  have hmailbox := hends.listeners_eq.1
  by_cases hcurrent : t.generation = c.generation
  · cases hsettle : c.settle e'.policy now success with
    | overflow c' => exact absurd hsettle (Circuit.settle_ne_overflow (hpolicy ▸ hfits) _ _ _)
    | done c' change' =>
      refine ⟨{ e' with circuit := c' }, change', hends.suits, fun c₀ δ heval => ?_⟩
      rw [← hpolicy] at heval
      refine ⟨e.cutNote move ++ noted δ ++ [.counted t success] ++ noted change', ?_,
        (hends.withCircuit c₀).step_eq now |>.trans ?_⟩
      · simp only [List.forall_mem_append, List.forall_mem_singleton]
        exact ⟨⟨⟨cutNote_inward e move, noted_inward δ⟩, rfl⟩, noted_inward change'⟩
      · rw [← hmailbox]
        exact report_of_current (e := { e' with circuit := c₀ }) _ heval hcurrent hsettle
  · refine ⟨{ e' with circuit := c }, none, hends.suits, fun c₀ δ heval => ?_⟩
    rw [← hpolicy] at heval
    refine ⟨e.cutNote move ++ noted δ ++ [.stale t c.generation success], ?_,
      (hends.withCircuit c₀).step_eq now |>.trans ?_⟩
    · simp only [List.forall_mem_append, List.forall_mem_singleton]
      exact ⟨⟨cutNote_inward e move, noted_inward δ⟩, rfl⟩
    · rw [Mailbox.push_none, ← hmailbox]
      exact report_of_stale (e := { e' with circuit := c₀ }) _ heval hcurrent

/-- Every move that evaluates goes on from there. -/
theorem exists_goesOn (hfits : e.policy.Fits now) (houtside : listeners e.frames = 0)
    (hmove : e.evaluates move = true) (hstep : e.step now move = some r) (c : Circuit) :
    ∃ e' sequel change', e.GoesOn now move c e' sequel change' := by
  cases step_outside houtside hstep with
  | query => exact ⟨_, _, _, goesOn_query e now c⟩
  | reset => cases hmove
  | call =>
    obtain ⟨e', sequel, h⟩ := exists_goesOn_call e now c
    exact ⟨e', sequel, none, h⟩
  | ends hends =>
    obtain ⟨e'', change', h⟩ := exists_goesOn_end hfits hends c
    exact ⟨e'', _, change', h⟩
  | pauses hpauses =>
    obtain ⟨t, ⟨rfl, -⟩ | ⟨rfl, -⟩⟩ := hpauses.reply_eq <;> cases hmove

/-- What comes back does not depend on how the circuit stood before, and the
listener is told of what was due and of what the method did. -/
theorem GoesOn.stepQuiet_eq (h : e.GoesOn now move c e' sequel change')
    (hmailbox : e.mailbox = {}) {c₀ : Circuit} {δ : Option Transition}
    (heval : c₀.evaluate e.policy now = .done c δ) :
    ∃ r, ({ e with circuit := c₀ } : Engine).stepQuiet now move = some r ∧
      r.engine = (({ e' with mailbox := {} } : Engine).conclude sequel []).engine ∧
      r.reply = (({ e' with mailbox := {} } : Engine).conclude sequel []).reply ∧
      tellings r.journal = δ.toList ++ change'.toList := by
  obtain ⟨journal, hinward, hstep⟩ := h.step_eq c₀ δ heval
  have hfree : ((e.mailbox.push δ).push change').held = false := by simp [hmailbox]
  have hpending : ((e.mailbox.push δ).push change').pending = δ.toList ++ change'.toList := by
    simp [hmailbox]
  refine ⟨_, stepQuiet_of_deliver hstep hfree h.suits.proper, ?_, ?_, ?_⟩
  · exact (conclude_reply _ _ _ _).1
  · exact (conclude_reply _ _ _ _).2
  · rw [tellings_conclude h.suits, tellings_append, tellings_inward hinward, tellings_told,
      hpending, List.nil_append]

/-! ## Any number of queries -/

/-- The breaker after some queries at one instant: it still evaluates to `c`,
every query has shown that, and what the listener was told so far is the part
of `change` that is not due any more. -/
structure Asked (e : Engine) (now : Instant) (c : Circuit) (change : Option Transition)
    (asked : Run) : Prop where
  circuit : ∃ c₀ δ, asked.engine = { e with circuit := c₀ } ∧
    c₀.evaluate e.policy now = .done c δ ∧ asked.heard ++ δ.toList = change.toList
  shows : ∀ s ∈ asked.stages, s.response.reply = .view c.view

theorem Asked.query {asked : Run} (h : Asked e now c change asked) (hmailbox : e.mailbox = {})
    (hagain : c.evaluate e.policy now = .done c none) :
    ∃ r, asked.engine.stepQuiet now .query = some r ∧
      Asked e now c change
        (asked.snoc { before := asked.engine, now, move := .query, response := r }) := by
  obtain ⟨⟨c₀, δ, hengine, heval, hheard⟩, hshows⟩ := h
  obtain ⟨r, hstep, hafter, hreply, htold⟩ := (goesOn_query e now c).stepQuiet_eq hmailbox heval
  refine ⟨r, hengine ▸ hstep, ⟨c, none, ?_, hagain, ?_⟩, ?_⟩
  · change r.engine = _
    rw [hafter, conclude, ← hmailbox]
  · rw [Run.heard_snoc, htold, ← hheard, Option.toList_none, List.append_nil, List.append_nil]
  · simp only [Run.snoc, List.forall_mem_append, List.forall_mem_singleton]
    exact ⟨hshows, hreply⟩

theorem exists_asked (hmailbox : e.mailbox = {})
    (heval : e.circuit.evaluate e.policy now = .done c change)
    (hagain : c.evaluate e.policy now = .done c none) (n : Nat) :
    ∃ asked, e.runQuiet (List.replicate n (now, .query)) = some asked ∧
      Asked e now c change asked := by
  induction n with
  | zero => exact ⟨{ engine := e }, rfl, ⟨e.circuit, change, rfl, heval, rfl⟩, by simp⟩
  | succ n ih =>
    obtain ⟨asked, hrun, hasked⟩ := ih
    obtain ⟨r, hquiet, hnext⟩ := hasked.query hmailbox hagain
    rw [List.replicate_succ']
    exact ⟨_, runQuiet_snoc hrun hquiet, hnext⟩

/-! ## Pauses -/

/-- A pause tells nothing and looks at no circuit. -/
theorem stepQuiet_of_pause (hpauses : pauses move = true)
    (hquiet : e.stepQuiet now move = some r) :
    (∃ frames suspended, r.engine = { e with frames, suspended } ∧
      listeners frames = listeners e.frames) ∧ r.journal = [] ∧
      ∀ c, ({ e with circuit := c } : Engine).stepQuiet now move =
        some { r with engine := { r.engine with circuit := c } } := by
  obtain ⟨r, hstep, rfl⟩ := Option.map_eq_some_iff.1 hquiet
  cases move with
  | resume t =>
    simp only [step] at hstep
    split at hstep
    next hmem =>
      cases hstep
      refine ⟨⟨_, _, rfl, listeners_operating t e.frames⟩, rfl, fun c => ?_⟩
      simp [stepQuiet, step, hmem, Response.settleQuiet]
    · cases hstep
  | suspend =>
    simp only [step] at hstep
    split at hstep
    next t frames hframes =>
      cases hstep
      refine ⟨⟨_, _, rfl, ?_⟩, rfl, fun c => ?_⟩
      · rw [hframes, listeners_operating]
      · simp [stepQuiet, step, hframes, Response.settleQuiet]
    · cases hstep
  | _ => cases hpauses

/-- What the moves of a run came back with. -/
def Run.replies (run : Run) : List Reply := run.stages.map (·.response.reply)

theorem Run.replies_snoc (run : Run) (s : Stage) :
    (run.snoc s).replies = run.replies ++ [s.response.reply] := by
  simp [Run.replies, Run.snoc]

/-- What pauses at one instant keep, and that they go the same way however the
circuit stands. -/
structure Paused (e : Engine) (now : Instant) (pausing : List Move) (paused : Run) : Prop where
  circuit_eq : paused.engine.circuit = e.circuit
  policy_eq : paused.engine.policy = e.policy
  mailbox_eq : paused.engine.mailbox = e.mailbox
  listeners_eq : listeners paused.engine.frames = listeners e.frames
  heard_eq : paused.heard = []
  elsewhere : ∀ c, ∃ paused',
    ({ e with circuit := c } : Engine).runQuiet (pausing.map (now, ·)) = some paused' ∧
      paused'.engine = { paused.engine with circuit := c } ∧
      paused'.replies = paused.replies ∧ paused'.heard = []

theorem paused_of_runQuiet {pausing : List Move} {paused : Run}
    (hpauses : ∀ move ∈ pausing, pauses move = true)
    (hrun : e.runQuiet (pausing.map (now, ·)) = some paused) : e.Paused now pausing paused := by
  induction pausing using List.reverseRecOn generalizing paused with
  | nil =>
    cases hrun
    exact ⟨rfl, rfl, rfl, rfl, rfl, fun c => ⟨_, rfl, rfl, rfl, rfl⟩⟩
  | append_singleton rest move ih =>
    rw [List.forall_mem_append, List.forall_mem_singleton] at hpauses
    rw [List.map_append, List.map_singleton, runQuiet_concat] at hrun
    obtain ⟨first, hfirst, hextend⟩ := Option.bind_eq_some_iff.1 hrun
    obtain ⟨r, hquiet, rfl⟩ := Option.map_eq_some_iff.1 hextend
    obtain ⟨hcircuit, hpolicy, hmailbox, hlisteners, hheard, helsewhere⟩ := ih hpauses.1 hfirst
    obtain ⟨⟨frames, suspended, hengine, hsame⟩, hjournal, hother⟩ :=
      stepQuiet_of_pause hpauses.2 hquiet
    refine
      { circuit_eq := by rw [Run.snoc, hengine, hcircuit]
        policy_eq := by rw [Run.snoc, hengine, hpolicy]
        mailbox_eq := by rw [Run.snoc, hengine, hmailbox]
        listeners_eq := by rw [Run.snoc, hengine, hsame, hlisteners]
        heard_eq := by rw [Run.heard_snoc, hheard, hjournal]; rfl
        elsewhere := fun c => ?_ }
    obtain ⟨first', hfirst', hafter, hreplies, hheard'⟩ := helsewhere c
    have hquiet' := runQuiet_snoc hfirst' (hafter ▸ hother c)
    refine ⟨_, by rw [List.map_append]; exact hquiet', rfl, ?_, ?_⟩
    · rw [Run.replies_snoc, Run.replies_snoc, hreplies]
    · rw [Run.heard_snoc, hheard', hjournal]
      rfl

section

variable {name : String} {policy : Policy} {audience : Audience} {start : Instant}
variable {schedule : List (Instant × Move)} {run : Run}

/-- Queries are absorbed.  Take a breaker whose closed windows have a length, and
any move of a client that evaluates it: a call, the end of a call, or a query.
The move may come behind pauses, as when a poll goes on with a call, which then
ends.  Any number of queries can be put before all that at the same instant.
They all show the same, which a query in the place of the move would show too;
the moves come back with the same replies and leave the same breaker, and in the
end the listener has been told the same, in the same order. -/
theorem queries_absorbed (hlife : lifeQuiet name policy audience start schedule = some run)
    (hfits : ∀ entry ∈ schedule, policy.Fits entry.1) (hwindow : 0 < policy.closedWindow)
    (hnow : policy.Fits now) {pausing : List Move} {paused : Run}
    (hpauses : ∀ move ∈ pausing, pauses move = true)
    (hpaused : run.engine.runQuiet (pausing.map (now, ·)) = some paused)
    (hmove : paused.engine.evaluates move = true)
    (hquiet : paused.engine.stepQuiet now move = some r) (n : Nat) :
    ∃ asked paused' r',
      run.engine.runQuiet (List.replicate n (now, .query)) = some asked ∧
      asked.engine.runQuiet (pausing.map (now, ·)) = some paused' ∧
      paused'.engine.stepQuiet now move = some r' ∧
      paused'.replies = paused.replies ∧ r'.reply = r.reply ∧ r'.engine = r.engine ∧
      asked.heard ++ paused'.heard ++ tellings r'.journal =
        paused.heard ++ tellings r.journal ∧
      (∀ s ∈ asked.stages,
        s.response.reply = .view (run.engine.evaluated now .query).view) ∧
      (move = .query → r.reply = .view (run.engine.evaluated now .query).view) := by
  have hresting := resting_of_lifeQuiet hfits hlife
  have hmailbox := hresting.delivered.mailbox_eq
  rw [← hresting.policy_eq] at hwindow hnow
  have hkept := paused_of_runQuiet hpauses hpaused
  have hempty := hkept.mailbox_eq.trans hmailbox
  have houtside := hkept.listeners_eq.trans hresting.delivered.outside
  obtain ⟨first, hstep, -⟩ := Option.map_eq_some_iff.1 hquiet
  cases heval : run.engine.circuit.evaluate run.engine.policy now with
  | overflow c => exact absurd heval (Circuit.evaluate_ne_overflow hnow _ _)
  | done c change =>
    have hagain := Circuit.evaluate_again hwindow hnow heval
    rw [evaluated_eq rfl heval]
    obtain ⟨asked, hrun, ⟨c₀, δ, hasked, heval₀, htold₀⟩, hshows⟩ :=
      exists_asked hmailbox heval hagain n
    obtain ⟨paused', hpaused', hengine', hreplies, hheard'⟩ := hkept.elsewhere c₀
    -- With the queries or without them, the method finds `c` once it has evaluated.
    rw [← hkept.policy_eq] at hnow heval₀
    rw [← hkept.policy_eq, ← hkept.circuit_eq] at heval
    obtain ⟨e', sequel, change', hgoes⟩ := exists_goesOn hnow houtside hmove hstep c
    obtain ⟨r₁, hquiet₁, hengine₁, hreply₁, htold₁⟩ := hgoes.stepQuiet_eq hempty heval
    obtain ⟨r', hquiet', hafter, hreply', htold'⟩ := hgoes.stepQuiet_eq hempty heval₀
    obtain rfl := Option.some.inj (hquiet.symm.trans hquiet₁)
    refine ⟨asked, paused', r', hrun, hasked ▸ hpaused', hengine' ▸ hquiet', hreplies,
      hreply'.trans hreply₁.symm, hafter.trans hengine₁.symm, ?_, hshows, ?_⟩
    · rw [htold', htold₁, ← htold₀, hkept.heard_eq, hheard', List.append_nil, List.nil_append,
        List.append_assoc]
    · rintro rfl
      obtain ⟨r₂, hquiet₂, -, hreply₂, -⟩ :=
        (goesOn_query paused.engine now c).stepQuiet_eq hempty heval
      obtain rfl := Option.some.inj (hquiet.symm.trans hquiet₂)
      exact hreply₂

/-- A circuit that stays open for no time turns half open at the first of two
queries, which tells the listener.  Behind them a poll goes on with a call of the
period before, which ends as it would have ended without them. -/
theorem queries_absorbed_reopened :
    ∃ run ∈ lifeQuiet "db" { minRequests := 1, openDuration := 0 } .client 0
        [(0, .call), (0, .suspend), (0, .call), (1, .finish false)],
      ∃ paused ∈ run.engine.runQuiet [(1, .resume ⟨0, 0⟩)],
      ∃ r ∈ paused.engine.stepQuiet 1 (.finish true),
      ∃ asked ∈ run.engine.runQuiet [(1, .query), (1, .query)],
      ∃ paused' ∈ asked.engine.runQuiet [(1, .resume ⟨0, 0⟩)],
      ∃ r' ∈ paused'.engine.stepQuiet 1 (.finish true),
        tellings r.journal = [{ source := .opened, target := .halfOpen }] ∧
        asked.heard = [{ source := .opened, target := .halfOpen }] ∧ tellings r'.journal = [] ∧
        r'.reply = r.reply ∧ r'.engine = r.engine := by
  obtain ⟨run, hlife, paused, hpaused, hheard, hmove, r, hquiet, htold, asked, hasked, hasked'⟩ :
      ∃ run ∈ lifeQuiet "db" { minRequests := 1, openDuration := 0 } .client 0
          [(0, .call), (0, .suspend), (0, .call), (1, .finish false)],
        ∃ paused ∈ run.engine.runQuiet [(1, .resume ⟨0, 0⟩)], paused.heard = [] ∧
          paused.engine.evaluates (.finish true) = true ∧
          ∃ r ∈ paused.engine.stepQuiet 1 (.finish true),
            tellings r.journal = [{ source := .opened, target := .halfOpen }] ∧
            ∃ asked ∈ run.engine.runQuiet [(1, .query), (1, .query)],
              asked.heard = [{ source := .opened, target := .halfOpen }] := by
    decide +kernel
  have hpauses : ∀ move ∈ [Move.resume ⟨0, 0⟩], pauses move = true := by decide
  obtain ⟨_, paused', r', hrun, hpaused', hquiet', -, hreply, hengine, htellings, -⟩ :=
    queries_absorbed hlife (by decide +kernel) (by decide) (by decide) hpauses hpaused hmove
      hquiet 2
  obtain rfl := Option.some.inj (hasked.symm.trans hrun)
  rw [hheard, htold, hasked', List.append_assoc, List.nil_append, List.append_right_eq_self,
    List.append_eq_nil_iff] at htellings
  exact ⟨run, hlife, paused, hpaused, r, hquiet, asked, hasked, paused', hpaused', r', hquiet',
    htold, hasked', htellings.2, hreply, hengine⟩

/-- A window without a length is over again whenever it is looked at, so the
call behind a query begins yet another generation. -/
example : ∃ e ∈ new? "db" { closedWindow := 0 } .client 0, ∃ asked ∈ e.stepQuiet 0 .query,
    ∃ r ∈ e.stepQuiet 0 .call, ∃ r' ∈ asked.engine.stepQuiet 0 .call,
      r'.engine.circuit.generation ≠ r.engine.circuit.generation := by
  decide +kernel

end

end Engine

end Breaker
