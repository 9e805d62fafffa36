import Breaker.Proofs.Generation
import Breaker.Proofs.Twins

/-!
# A delivery comes to an end

While the listener has control it may use the breaker, and so make changes that
are then delivered too: the mailbox can grow while it is being emptied.  A
delivery still ends, because each move of the listener does one of two things.
It returns, and takes a transition out of the mailbox; or it uses the breaker,
and adds one transition at most.  With `k` uses left and `n` transitions waiting,
`n + 2 * k` goes down with every move.

* `Run.attend` lets the listener act until it does not have control any more.
  What it does is a `Conduct`, which sees all that has happened.
* `heard_cases` and `Hands.within`: what a return of the listener does, and what
  anything else does while the listener has control.
* `Underway` is what holds between two moves of a delivery, and `Underway.snoc`
  that each move keeps it.
* `delivery_ends` is the result.
-/

namespace Breaker.Engine

/-! ## The moves inside the listener -/

section

variable {e : Engine} {now : Instant} {move : Move} {r : Response}
variable {changes : List Transition}

/-- A method outside the listener either calls the listener or leaves nothing to
deliver. -/
theorem Hands.enters (h : e.Hands changes move r) (htended : e.Tended)
    (houtside : listeners e.frames = 0) (hmove : pauses move = false) :
    listeners r.engine.frames = 1 ∨
      listeners r.engine.frames = 0 ∧ r.engine.mailbox.pending = [] := by
  unfold Tended at htended
  cases h with
  | @delivers _ e' sequel hpending hheld hlisteners hsequel journal =>
    rw [← hheld, ← hlisteners] at htended
    rw [← hlisteners] at houtside
    rcases deliver_cases e' sequel journal with ⟨t, rest, -, heq⟩ | ⟨hidle, heq⟩
    · left
      rw [heq, listeners_listening, houtside]
    · obtain ⟨-, hmailbox, hsame⟩ := conclude_quiet (e := e') hsequel journal
      right
      rw [heq, hsame, hmailbox]
      refine ⟨houtside, hidle.resolve_left ?_⟩
      intro hbusy
      rw [houtside, hbusy] at htended
      cases htended
  | proceeds hframes hchanges hsequel =>
    rw [hframes, listeners_listening] at houtside
    cases houtside
  | breaksOff text hframes hchanges =>
    rw [hframes, listeners_listening] at houtside
    cases houtside
  | stays hstays hchanges hmailbox hlisteners hreply =>
    rcases hstays with rfl | ⟨t, rfl⟩ <;> cases hmove

/-- Whatever is done with the breaker inside the listener, the delivery under way
takes care of the changes: none of it calls the listener, which keeps control. -/
theorem Hands.within (h : e.Hands changes move r) (htended : e.Tended)
    (hinside : listeners e.frames = 1) (hmove : move ≠ .heard)
    (hquiet : Stage.listenerPanics { before := e, now, move, response := r } = false) :
    toldBy r.reply = [] ∧ listeners r.engine.frames = 1 := by
  unfold Tended at htended
  cases h with
  | @delivers _ e' sequel hpending hheld hlisteners hsequel journal =>
    rw [← hheld, ← hlisteners] at htended
    rw [← hlisteners] at hinside
    rcases deliver_cases e' sequel journal with ⟨t, rest, hmailbox, -⟩ | ⟨-, heq⟩
    · rw [hinside, hmailbox] at htended
      cases htended
    · obtain ⟨htold, -, hsame⟩ := conclude_quiet (e := e') hsequel journal
      rw [heq]
      exact ⟨htold, hsame.trans hinside⟩
  | proceeds hframes hchanges hsequel => exact absurd rfl hmove
  | breaksOff text hframes hchanges => simp [Stage.listenerPanics, hframes] at hquiet
  | stays hstays hchanges hmailbox hlisteners hreply =>
    exact ⟨hreply.1, hlisteners.trans hinside⟩

/-- When the listener returns, it is called with the next transition; or there is
none, and the delivery is over. -/
theorem heard_cases (hproper : e.Proper) (hinside : listeners e.frames = 1)
    (hstep : e.step now .heard = some r) :
    (∃ t, toldBy r.reply = [t] ∧ listeners r.engine.frames = 1) ∨
      toldBy r.reply = [] ∧ listeners r.engine.frames = 0 ∧ r.engine.mailbox.pending = [] := by
  simp only [step] at hstep
  split at hstep
  next t sequel frames hframes =>
    cases hstep
    have hsequel := hproper t sequel (hframes ▸ List.mem_cons_self)
    rw [hframes, listeners_listening, Nat.add_eq_right] at hinside
    rcases proceed_cases { e with frames } sequel [] with ⟨t', rest, -, heq⟩ | ⟨-, heq⟩
    · rw [heq]
      exact .inl ⟨t', rfl, by rw [listeners_listening, hinside]⟩
    · obtain ⟨htold, hmailbox, hsame⟩ :=
        conclude_quiet (e := { e with frames, mailbox := {} }) hsequel []
      rw [heq]
      exact .inr ⟨htold, hsame.trans hinside, by rw [hmailbox]⟩
  · cases hstep

/-- The return of the listener is no change. -/
theorem changes_heard (hstep : e.step now .heard = some r) :
    Stage.changes { before := e, now, move := .heard, response := r } = [] :=
  changes_eq_nil rfl (circuit_of_heard hstep)

/-- A move makes one change of phase at most. -/
theorem Took.length_changes_le (h : e.Took now move r) (hpast : e.Past move) :
    (Stage.changes { before := e, now, move, response := r }).length ≤ 1 := by
  rw [h.changes_eq hpast, length_change]
  split <;> omega

end

/-! ## A delivery -/

/-- What the clients do next, and when, after all that has happened so far. -/
abbrev Conduct := Run → Instant × Move

/-- One more move, if the listener has control. -/
def Run.advance (run : Run) (conduct : Conduct) : Option Run :=
  if listeners run.engine.frames = 0 then some run else run.extend (conduct run)

/-- The run after `n` more moves, or as many as the delivery under way takes. -/
def Run.attend (run : Run) (conduct : Conduct) : Nat → Option Run
  | 0 => some run
  | n + 1 => (run.attend conduct n).bind (·.advance conduct)

/-- How many of the stages are not a return of the listener. -/
def uses (stages : List Stage) : Nat := stages.countP (·.move ≠ .heard)

/-- The listener does not panic, it uses the breaker `k` times at most, and the
clock can hold the deadlines. -/
def Moderate (policy : Policy) (k : Nat) (stages : List Stage) : Prop :=
  (∀ s ∈ stages, policy.Fits s.now ∧ s.listenerPanics = false) ∧ uses stages ≤ k

instance (policy : Policy) (k : Nat) (stages : List Stage) :
    Decidable (Moderate policy k stages) :=
  inferInstanceAs (Decidable (_ ∧ _))

/-- A delivery that is over stays over. -/
theorem attend_add {run after : Run} {conduct : Conduct} {n : Nat}
    (hattend : run.attend conduct n = some after) (hover : listeners after.engine.frames = 0)
    (m : Nat) : run.attend conduct (n + m) = some after := by
  induction m with
  | zero => exact hattend
  | succ m ih =>
    rw [← Nat.add_assoc, Run.attend, ih, Option.bind_some, Run.advance, if_pos hover]

/-- What a move does while the listener has control. -/
inductive Stage.Attends (s : Stage) : Prop where
  /-- The listener returns, and is called with the next transition. -/
  | tells (hmove : s.move = .heard) (hcontrol : listeners s.response.engine.frames = 1)
      (hpending : s.response.engine.mailbox.pending.length + 1 = s.before.mailbox.pending.length)
  /-- The listener returns, and there is nothing left. -/
  | ends (hmove : s.move = .heard) (hover : listeners s.response.engine.frames = 0)
      (hpending : s.response.engine.mailbox.pending = [])
  /-- The breaker is used. -/
  | uses (hmove : s.move ≠ .heard) (hcontrol : listeners s.response.engine.frames = 1)
      (htold : toldBy s.response.reply = [])
      (hpending : s.response.engine.mailbox.pending.length ≤ s.before.mailbox.pending.length + 1)

section

variable {policy : Policy} {first run : Run} {later : List Stage} {s : Stage}

theorem Orderly.listeners_le (h : Orderly policy run) : listeners run.engine.frames ≤ 1 := by
  rw [h.tended]
  exact Bool.toNat_le _

theorem attends_of_valid (horderly : Orderly policy run) (hreached : Reached policy run)
    (hbefore : run.engine = s.before) (hinside : listeners s.before.frames = 1)
    (hfits : policy.Fits s.now) (hquiet : s.listenerPanics = false) (hvalid : s.Valid) :
    s.Attends := by
  have took := step_took hvalid
  have hpast := hreached.past (hbefore ▸ took)
  have hproper := horderly.proper
  have htended := horderly.tended
  have hpolicy := horderly.policy_eq
  rw [hbefore] at hpast hproper htended hpolicy
  have hhands := took.hands hproper (hpolicy ▸ hfits)
  have hlength := congrArg List.length hhands.balance
  rw [List.length_append, List.length_append] at hlength
  by_cases hmove : s.move = .heard
  · have hheard : s.before.step s.now .heard = some s.response := hmove ▸ hvalid
    have hchanges := changes_heard hheard
    rw [← hmove] at hchanges
    rw [hchanges] at hlength
    rcases heard_cases hproper hinside hheard with ⟨t, htold, hcontrol⟩ | ⟨-, hover, hpending⟩
    · rw [htold, List.length_singleton] at hlength
      exact .tells hmove hcontrol (by simpa [Nat.add_comm] using hlength.symm)
    · exact .ends hmove hover hpending
  · obtain ⟨htold, hcontrol⟩ := hhands.within htended hinside hmove hquiet
    have hchanges := took.length_changes_le hpast
    rw [htold, List.length_nil] at hlength
    exact .uses hmove hcontrol htold (by omega)

/-- What holds between two moves of the delivery that follows `first`, in which
the stages `later` have been made. -/
structure Underway (policy : Policy) (first : Run) (later : List Stage) (run : Run) : Prop where
  stages_eq : run.stages = first.stages ++ later
  orderly : Orderly policy run
  reached : Reached policy run
  /-- Every move is made while the listener has control. -/
  inside : ∀ s ∈ later, listeners s.before.frames = 1
  /-- None of them starts an invocation of the listener within another. -/
  alone : ∀ s ∈ later, listeners s.response.engine.frames ≤ 1
  /-- The listener is called when it has returned, and at no other time. -/
  told : ∀ s ∈ later, toldBy s.response.reply ≠ [] → s.move = .heard
  /-- Every use of the breaker puts off the end by two moves at most. -/
  measure : listeners run.engine.frames ≠ 0 → run.engine.mailbox.pending.length + later.length ≤
    first.engine.mailbox.pending.length + 2 * uses later
  drained : listeners run.engine.frames = 0 → run.engine.mailbox.pending = []

theorem uses_concat (later : List Stage) (s : Stage) :
    uses (later ++ [s]) = uses later + if s.move = .heard then 0 else 1 := by
  by_cases hmove : s.move = .heard <;> simp [uses, hmove]

theorem Underway.snoc (h : Underway policy first later run)
    (hcontrol : listeners run.engine.frames ≠ 0) (hbefore : run.engine = s.before)
    (hfits : policy.Fits s.now) (hquiet : s.listenerPanics = false) (hvalid : s.Valid) :
    Underway policy first (later ++ [s]) (run.snoc s) := by
  have hinside : listeners s.before.frames = 1 := by
    have := h.orderly.listeners_le
    rw [← hbefore]
    omega
  have hattends := attends_of_valid h.orderly h.reached hbefore hinside hfits hquiet hvalid
  have hmeasure := h.measure hcontrol
  rw [hbefore] at hmeasure
  have hall : ∀ p : Stage → Prop, (∀ s' ∈ later, p s') → p s → ∀ s' ∈ later ++ [s], p s' := by
    intro p hlater hs
    rw [List.forall_mem_append, List.forall_mem_singleton]
    exact ⟨hlater, hs⟩
  refine
    { stages_eq := by rw [Run.snoc, h.stages_eq, List.append_assoc]
      orderly := h.orderly.snoc hbefore hfits hvalid
      reached := h.reached.snoc hbefore hvalid
      inside := hall _ h.inside hinside
      alone := hall _ h.alone ?_
      told := hall _ h.told ?_
      measure := ?_
      drained := ?_ }
  · cases hattends <;> omega
  · cases hattends with
    | tells hmove hcontrol hpending => exact fun _ => hmove
    | ends hmove hover hpending => exact fun _ => hmove
    | uses hmove hcontrol htold hpending => exact fun hne => absurd htold hne
  · rw [uses_concat, List.length_append, List.length_singleton]
    cases hattends with
    | tells hmove hcontrol hpending =>
      rw [if_pos hmove]
      simp only [Run.snoc]
      omega
    | ends hmove hover hpending => exact fun hne => absurd hover hne
    | uses hmove hcontrol htold hpending =>
      rw [if_neg hmove]
      simp only [Run.snoc]
      omega
  · cases hattends with
    | tells hmove hcontrol hpending =>
      exact fun hover => absurd (hcontrol.symm.trans hover) Nat.one_ne_zero
    | ends hmove hover hpending => exact fun _ => hpending
    | uses hmove hcontrol htold hpending =>
      exact fun hover => absurd (hcontrol.symm.trans hover) Nat.one_ne_zero

/-- A delivery begins with a method that is started outside the listener. -/
theorem underway_first (horderly : Orderly policy run) (hreached : Reached policy run)
    (hbefore : run.engine = s.before) (houtside : listeners run.engine.frames = 0)
    (hfits : policy.Fits s.now) (hmove : pauses s.move = false) (hvalid : s.Valid) :
    Underway policy (run.snoc s) [] (run.snoc s) where
  stages_eq := (List.append_nil _).symm
  orderly := horderly.snoc hbefore hfits hvalid
  reached := hreached.snoc hbefore hvalid
  inside := by simp
  alone := by simp
  told := by simp
  measure _ := Nat.le_refl _
  drained := by
    have hproper := horderly.proper
    have htended := horderly.tended
    have hpolicy := horderly.policy_eq
    rw [hbefore] at hproper htended hpolicy houtside
    have hhands := (step_took hvalid).hands hproper (hpolicy ▸ hfits)
    rcases hhands.enters htended houtside hmove with hcontrol | ⟨-, hpending⟩
    · exact fun hover => absurd (hcontrol.symm.trans hover) Nat.one_ne_zero
    · exact fun _ => hpending

variable {conduct : Conduct} {k : Nat}

/-- After `n` moves the delivery is over or has taken `n` moves. -/
theorem exists_underway (hfirst : Underway policy first [] first)
    (hmoderate : ∀ n, ∃ after ∈ first.attend conduct n,
      Moderate policy k (after.stages.drop first.stages.length)) (n : Nat) :
    ∃ later after, first.attend conduct n = some after ∧ Underway policy first later after ∧
      (listeners after.engine.frames = 0 ∨ later.length = n) := by
  induction n with
  | zero => exact ⟨[], first, rfl, hfirst, .inr rfl⟩
  | succ n ih =>
    obtain ⟨later, run, hattend, hunderway, hlength⟩ := ih
    have hnext : first.attend conduct (n + 1) = run.advance conduct := by
      rw [Run.attend, hattend, Option.bind_some]
    by_cases hover : listeners run.engine.frames = 0
    · refine ⟨later, run, ?_, hunderway, .inl hover⟩
      rw [hnext, Run.advance, if_pos hover]
    · obtain ⟨after, hafter, hall, -⟩ := hmoderate (n + 1)
      rw [hnext, Run.advance, if_neg hover] at hafter
      obtain ⟨r, hstep, rfl⟩ := Option.map_eq_some_iff.1 hafter
      rw [Run.snoc, hunderway.stages_eq, List.append_assoc, List.drop_left,
        List.forall_mem_append, List.forall_mem_singleton] at hall
      obtain ⟨hfits, hquiet⟩ := hall.2
      refine ⟨_, _, ?_, hunderway.snoc hover rfl hfits hquiet hstep, .inr ?_⟩
      · rw [hnext, Run.advance, if_neg hover]
        exact hafter
      · rw [List.length_append, List.length_singleton, hlength.resolve_left hover]

/-- The delivery is over after the moves that the measure allows. -/
theorem attend_ends (hfirst : Underway policy first [] first)
    (hmoderate : ∀ n, ∃ after ∈ first.attend conduct n,
      Moderate policy k (after.stages.drop first.stages.length)) :
    ∃ later after, Underway policy first later after ∧ listeners after.engine.frames = 0 ∧
      ∀ n, first.engine.mailbox.pending.length + 2 * k + 1 ≤ n →
        first.attend conduct n = some after := by
  generalize hbound : first.engine.mailbox.pending.length + 2 * k + 1 = bound
  obtain ⟨later, after, hattend, hunderway, hlength⟩ := exists_underway hfirst hmoderate bound
  have hover : listeners after.engine.frames = 0 := by
    by_contra hcontrol
    have hlong := hlength.resolve_left hcontrol
    obtain ⟨after', hattend', -, hfew⟩ := hmoderate bound
    obtain rfl := Option.some.inj (hattend.symm.trans hattend')
    rw [hunderway.stages_eq, List.drop_left] at hfew
    have hmeasure := hunderway.measure hcontrol
    omega
  refine ⟨later, after, hunderway, hover, fun n hn => ?_⟩
  obtain ⟨m, rfl⟩ := Nat.exists_eq_add_of_le hn
  exact attend_add hattend hover m

end

section

variable {name : String} {policy : Policy} {audience : Audience} {start : Instant}
variable {schedule : List (Instant × Move)} {run : Run} {s : Stage} {conduct : Conduct} {k : Nat}

/-- A delivery comes to an end.  Start a method outside the listener, and let the
listener do what it likes, as long as it does not panic and uses the breaker only
`k` times while it has control.  Then after a bounded number of moves it does not
have control any more, and whatever the clients would do next, the delivery is
over.

* Nothing is left to deliver.
* The listener was called once for each transition that was waiting, then for
  the change that the method made, and then for each change made while the
  listener had control, in this order.
* It was called when the method began to deliver, and after that only when it had
  returned; so nothing that was done inside the listener began a delivery, and no
  invocation was started within another. -/
theorem delivery_ends (hlife : life name policy audience start schedule = some run)
    (hfits : ∀ entry ∈ schedule, policy.Fits entry.1)
    (houtside : listeners run.engine.frames = 0) (hbefore : run.engine = s.before)
    (hvalid : s.Valid) (hnow : policy.Fits s.now) (hmove : pauses s.move = false)
    (hmoderate : ∀ n, ∃ after ∈ (run.snoc s).attend conduct n,
      Moderate policy k (after.stages.drop (run.snoc s).stages.length)) :
    ∃ later after,
      (∀ n, s.response.engine.mailbox.pending.length + 2 * k + 1 ≤ n →
        (run.snoc s).attend conduct n = some after) ∧
      after.stages = run.stages ++ s :: later ∧ listeners after.engine.frames = 0 ∧
      after.engine.mailbox.pending = [] ∧
      (s :: later).flatMap (fun s' => toldBy s'.response.reply) =
        run.engine.mailbox.pending ++ s.changes ++ later.flatMap Stage.changes ∧
      (∀ s' ∈ later, listeners s'.before.frames = 1 ∧
        (toldBy s'.response.reply ≠ [] → s'.move = .heard)) ∧
      ∀ s' ∈ s :: later, listeners s'.response.engine.frames ≤ 1 := by
  have horderly := orderly_of_life hlife hfits
  have hfirst := underway_first horderly (reached_of_life hlife) hbefore houtside hnow hmove hvalid
  obtain ⟨later, after, hunderway, hover, hattend⟩ := attend_ends hfirst hmoderate
  have hpending := hunderway.drained hover
  have hstages : after.stages = run.stages ++ s :: later := by
    rw [hunderway.stages_eq, Run.snoc, List.append_assoc, List.singleton_append]
  refine ⟨later, after, hattend, hstages, hover, hpending, ?_,
    fun s' hs' => ⟨hunderway.inside s' hs', hunderway.told s' hs'⟩, ?_⟩
  · have hbalance := hunderway.orderly.balance
    rw [hpending, List.append_nil, Run.told, Run.changes, hstages, List.flatMap_append,
      List.flatMap_append] at hbalance
    change run.told ++ _ = run.changes ++ _ at hbalance
    rw [← horderly.balance, List.append_assoc, List.append_cancel_left_eq] at hbalance
    rw [hbalance, List.flatMap_cons, List.append_assoc]
  · rw [List.forall_mem_cons]
    exact ⟨hfirst.orderly.listeners_le, hunderway.alone⟩

/-- A listener that tries a call when it hears that the circuit has opened, and
after that only returns. -/
def tryOnce : Conduct := fun run =>
  (1, match run.stages.length with
    | 2 => .call
    | 3 => .finish false
    | _ => .heard)

/-- The circuit opens for no time.  The call that the listener tries is a probe,
and fails: two more changes, so that the listener is called three times.  With
two uses of the breaker the delivery takes five moves. -/
theorem delivery_ends_reopened :
    ∃ run ∈ life "db" { minRequests := 1, openDuration := 0 } .client 0 [(0, .call)],
      ∃ r ∈ run.engine.step 1 (.finish false), ∃ after,
        (∀ n, 5 ≤ n →
          (run.snoc ⟨run.engine, 1, .finish false, r⟩).attend tryOnce n = some after) ∧
        listeners after.engine.frames = 0 ∧ after.engine.mailbox.pending = [] ∧
        after.told = [{ source := .closed, target := .opened },
          { source := .opened, target := .halfOpen },
          { source := .halfOpen, target := .opened }] := by
  obtain ⟨run, hlife, houtside, r, hstep, hpending, hfew, final, hattend, hover, hover', htold⟩ :
      ∃ run ∈ life "db" { minRequests := 1, openDuration := 0 } .client 0 [(0, .call)],
        listeners run.engine.frames = 0 ∧
        ∃ r ∈ run.engine.step 1 (.finish false), r.engine.mailbox.pending = [] ∧
          (∀ n < 5, ∃ after ∈ (run.snoc ⟨run.engine, 1, .finish false, r⟩).attend tryOnce n,
            Moderate { minRequests := 1, openDuration := 0 } 2
              (after.stages.drop (run.stages.length + 1))) ∧
          ∃ final ∈ (run.snoc ⟨run.engine, 1, .finish false, r⟩).attend tryOnce 5,
            listeners final.engine.frames = 0 ∧
            Moderate { minRequests := 1, openDuration := 0 } 2
              (final.stages.drop (run.stages.length + 1)) ∧
            final.told = [{ source := .closed, target := .opened },
              { source := .opened, target := .halfOpen },
              { source := .halfOpen, target := .opened }] := by
    decide +kernel
  have hmoderate : ∀ n,
      ∃ after ∈ (run.snoc ⟨run.engine, 1, .finish false, r⟩).attend tryOnce n,
        Moderate { minRequests := 1, openDuration := 0 } 2
          (after.stages.drop (run.snoc ⟨run.engine, 1, .finish false, r⟩).stages.length) := by
    intro n
    rw [Run.snoc, List.length_append, List.length_singleton]
    rcases Nat.lt_or_ge n 5 with hearly | hlate
    · exact hfew n hearly
    · obtain ⟨m, rfl⟩ := Nat.exists_eq_add_of_le hlate
      exact ⟨final, attend_add hattend hover m, hover'⟩
  have hvalid : Stage.Valid ⟨run.engine, 1, .finish false, r⟩ := hstep
  have hnow : Policy.Fits { minRequests := 1, openDuration := 0 } 1 := by decide +kernel
  obtain ⟨later, after, hends, -, hafter, hempty, -⟩ :=
    delivery_ends hlife (by decide +kernel) houtside rfl hvalid hnow rfl hmoderate
  rw [hpending] at hends
  obtain rfl := Option.some.inj (hattend.symm.trans (hends 5 (Nat.le_refl 5)))
  exact ⟨run, hlife, r, hstep, final, hends, hafter, hempty, htold⟩

end

end Breaker.Engine
