import Breaker.Proofs.Answer
import Breaker.Proofs.Period
import Breaker.Proofs.Probes

/-!
# Open periods

An open circuit lets no call pass, and nothing is counted in it.  So its period
leaves no trace but its length: it ends at its deadline, at the first move that
asks, or before it by a reset.

There are four groups.

* The ledger.  `Ledger.Shut` says that an open period has no calls.  Every call
  that ends in one is therefore of an earlier generation, and is not counted.
* One move.  `opened_stays` is a move before the deadline, `opened_lapses` the
  first one that asks after it.
* The run.  `still_opened` carries the open circuit from the move that opened
  it to any later one.
* The answers.  A method that is called in an open period may have to deliver
  what a panic of the listener has left over, and the listener may panic again.
  `open_period_of_life` therefore says what the method owes.  It answers at
  once if the listener has never panicked, and the last section has a run in
  which it does not answer.
-/

namespace Breaker

namespace Circuit

section

variable {policy : Policy} {now deadline : Instant} {c : Circuit}

/-- An open circuit with a deadline is due when the deadline has come. -/
theorem lapse_opened (hphase : c.phase = .opened) (hexpiry : c.expiry = some deadline) :
    c.lapse now = if deadline ≤ now then some .halfOpen else none := by
  simp [lapse, isDue, hphase, hexpiry]

theorem allow_opened (hphase : c.phase = .opened) : c.allow policy = .error .opened := by
  simp [allow, hphase]

end

end Circuit

namespace Engine

/-! ## The ledger of an open period -/

namespace Ledger

/-- An open period has no calls. -/
def Shut (l : Ledger) (a : Account) : Prop := a.circuit.phase = .opened → l.calls = []

theorem Shut.note {policy : Policy} {l : Ledger} {a b : Account} {event : Event} (h : l.Shut a)
    (hhappens : a.Happens policy event b) : (l.note event).Shut b := by
  intro hphase
  cases hhappens with
  | began hgeneration hwindow => rfl
  | admitted hallow =>
    rw [Circuit.allow_opened (c := a.circuit) hphase] at hallow
    cases hallow
  | invoked hwaiting =>
    rw [calls_invoked]
    exact h hphase
  | struck hwaiting =>
    rw [calls_struck]
    exact h hphase
  | counted success hrunning hcurrent =>
    rw [calls_ended]
    exact h hphase
  | stale success hrunning hstale =>
    rw [calls_ended]
    exact h hphase

end Ledger

section

variable {name : String} {policy : Policy} {audience : Audience} {start : Instant}
variable {schedule : List (Instant × Move)} {run : Run}

theorem shut_of_life (hlife : life name policy audience start schedule = some run) :
    run.ledger.Shut run.engine.account := by
  refine (reached_induction (motive := fun run => run.ledger.Shut run.engine.account)
    (fun _ _ _ => rfl) ?_ hlife).2
  intro run s hreached hshut hbefore _ hvalid
  obtain ⟨-, hproper, htracks⟩ := hreached
  rw [hbefore] at hproper htracks hshut
  rw [Run.ledger_snoc]
  exact htracks.foldl_keeps (fun _ h head => h.note head) hshut (htracks.passes hproper hvalid)

/-- A call that ends in an open period is of an earlier generation. -/
theorem stale_of_opened (hlife : life name policy audience start schedule = some run)
    (hphase : run.engine.circuit.phase = .opened) {now : Instant} {move : Move} {r : Response}
    (took : run.engine.Took now move r) {t : Ticket} {success : Bool}
    (hending : run.engine.ending move = some (t, success)) :
    t.generation ≠ run.engine.circuit.generation := by
  intro hcurrent
  have hcalls : run.ledger.calls = [] := shut_of_life hlife hphase
  have hcall : t.serial ∈ run.ledger.calls :=
    ((reached_of_life hlife).tracks.current t (took.ending_mem hending)).2 hcurrent
  rw [hcalls] at hcall
  exact List.not_mem_nil hcall

end

/-! ## One move -/

section

variable {e : Engine} {now deadline : Instant} {move : Move} {r : Response}

theorem lapses_opened (hphase : e.circuit.phase = .opened)
    (hexpiry : e.circuit.expiry = some deadline) :
    e.lapses now move =
      if e.evaluates move = true ∧ deadline ≤ now then some .halfOpen else none := by
  unfold lapses
  rw [Circuit.lapse_opened hphase hexpiry]
  by_cases hmove : e.evaluates move = true
  · simp only [hmove, true_and, if_true]
  · rw [if_neg hmove, if_neg fun hboth => hmove hboth.1]

/-- Only a reset changes a circuit that is still open once what is due has been
applied, when all calls that end are stale. -/
theorem Works.opened_eq {c c' : Circuit} (h : e.Works now move c c') (hphase : c.phase = .opened)
    (hmove : move ≠ .reset)
    (hstale : ∀ t success, e.ending move = some (t, success) → t.generation ≠ c.generation) :
    c' = c := by
  cases h with
  | keeps => rfl
  | allows hcall hallow =>
    rw [Circuit.allow_opened hphase] at hallow
    cases hallow
  | settles hending hcurrent => exact absurd hcurrent (hstale _ _ hending)
  | resets hreset => exact absurd hreset hmove

theorem evaluated_eq_circuit (h : e.lapses now move = none) :
    e.evaluated now move = e.circuit := by
  rw [evaluated_eq_turn, h]
  rfl

theorem evaluate_eq_done (hmove : e.evaluates move = true) (h : e.lapses now move = none) :
    e.circuit.evaluate e.policy now = .done e.circuit none := by
  rw [evaluate_eq_turn_lapses hmove, h]
  rfl

/-- A call of an open circuit is refused. -/
theorem call_opened (heval : e.circuit.evaluate e.policy now = .done e.circuit none)
    (hphase : e.circuit.phase = .opened) : e.call now = e.deliver (.refuse .opened) [] := by
  have hallow : e.circuit.allow e.policy = .error .opened := Circuit.allow_opened hphase
  have haccept : e.accept e.circuit none = e := by
    rw [accept, Mailbox.push_none]
  simp only [call, heval, hallow, haccept]
  rfl

theorem query_opened (heval : e.circuit.evaluate e.policy now = .done e.circuit none)
    (hphase : e.circuit.phase = .opened) :
    e.query now =
      e.deliver (.answer (.view ⟨.opened, e.circuit.generation, e.circuit.window⟩)) [] := by
  have haccept : e.accept e.circuit none = e := by
    rw [accept, Mailbox.push_none]
  simp only [query, heval, haccept, hphase]
  rfl

theorem move_eq_call_of_admitted {n : Nat}
    (h : .admitted n ∈ Stage.events { before := e, now, move, response := r }) :
    move = .call ∧ e.admits now = true ∧ n = e.nextSerial := by
  have hdeed := Stage.mem_deed_of_mem_events h Event.noConfusion fun _ => Event.noConfusion
  simp only [deed] at hdeed
  split at hdeed
  · split at hdeed
    · rename_i hadmits
      exact ⟨rfl, hadmits, Event.admitted.inj (List.mem_singleton.1 hdeed)⟩
    · cases hdeed
  · cases List.mem_singleton.1 hdeed
  · split at hdeed
    · cases List.mem_singleton.1 hdeed
    · cases hdeed

end

section

variable {name : String} {policy : Policy} {audience : Audience} {start now deadline : Instant}
variable {schedule : List (Instant × Move)} {run : Run} {move : Move} {r : Response}

/-- Before the deadline a move leaves an open circuit as it is. -/
theorem opened_stays (hlife : life name policy audience start schedule = some run)
    (hstep : run.engine.step now move = some r) (hphase : run.engine.circuit.phase = .opened)
    (hexpiry : run.engine.circuit.expiry = some deadline) (hmove : move ≠ .reset)
    (hearly : run.engine.evaluates move = true → now < deadline) :
    run.engine.lapses now move = none ∧ r.engine.circuit = run.engine.circuit := by
  have took := step_took hstep
  have hlapses : run.engine.lapses now move = none := by
    rw [lapses_opened hphase hexpiry, if_neg]
    rintro ⟨hasks, hdue⟩
    exact Nat.not_lt.2 hdue (hearly hasks)
  have hworks := took.works
  rw [evaluated_eq_circuit hlapses] at hworks
  refine ⟨hlapses, hworks.opened_eq hphase hmove ?_⟩
  intro t success hending
  exact stale_of_opened hlife hphase took hending

/-- The first move that asks after the deadline makes an open circuit half
open, and if it is a call it is the first probe. -/
theorem opened_lapses (hsound : policy.Sound name)
    (hlife : life name policy audience start schedule = some run)
    (hstep : run.engine.step now move = some r) (hphase : run.engine.circuit.phase = .opened)
    (hexpiry : run.engine.circuit.expiry = some deadline) (hfits : policy.Fits now)
    (hasks : run.engine.evaluates move = true) (hdue : deadline ≤ now) :
    Stage.changes { before := run.engine, now, move, response := r } =
        [{ source := .opened, target := .halfOpen }] ∧
      r.engine.circuit.phase = .halfOpen ∧
      r.engine.circuit.generation = run.engine.circuit.generation + 1 ∧
      (move = .call → .admitted run.engine.nextSerial ∈
        Stage.events { before := run.engine, now, move, response := r }) := by
  have hreached := reached_of_life hlife
  have took := step_took hstep
  have hpast := hreached.past took
  have hlapses : run.engine.lapses now move = some .halfOpen := by
    rw [lapses_opened hphase hexpiry, if_pos ⟨hasks, hdue⟩]
  have hstarts : run.engine.starts now move = some .halfOpen := starts_of_lapses hlapses
  refine ⟨?_, ?_, ?_, ?_⟩
  · rw [took.changes_eq hpast, hstarts, hphase]
    rfl
  · rw [took.phase_eq hpast, hstarts]
    rfl
  · obtain ⟨w, hcircuit⟩ := took.circuit_eq hpast
    rw [hcircuit, hstarts]
    exact (Circuit.circuit_turn_some _ _ _ _).2.1
  · intro hcall
    have heval : run.engine.circuit.evaluate run.engine.policy now =
        run.engine.circuit.turn run.engine.policy now (run.engine.lapses now move) :=
      evaluate_eq_turn_lapses hasks
    rw [hlapses, hreached.policy_eq] at heval
    obtain ⟨hhalf, -, hwindow⟩ :=
      Circuit.circuit_turn_some policy now .halfOpen run.engine.circuit
    cases hturn : run.engine.circuit.turn policy now (some .halfOpen) with
    | overflow c => exact absurd hturn (Circuit.turn_ne_overflow hfits _ _ _)
    | done c change =>
      rw [hturn] at heval hhalf hwindow
      have hroom : c.window.requests < policy.probeLimit := by
        rw [show c.window = {} from hwindow]
        exact hsound.probeLimit_pos
      have hallow := Circuit.allow_halfOpen hhalf hroom
      have hadmits : run.engine.admits now = true :=
        admits_of_ok (hreached.policy_eq ▸ heval) (hreached.policy_eq ▸ hallow)
      subst hcall
      simp [Stage.events, deed, hadmits]

/-- The move that opens the circuit sets the deadline. -/
theorem opened_of_change (hlife : life name policy audience start schedule = some run)
    (hstep : run.engine.step now move = some r) (hfits : policy.Fits now) {p : Phase}
    (hopens : { source := p, target := .opened } ∈
      Stage.changes { before := run.engine, now, move, response := r }) :
    r.engine.circuit.phase = .opened ∧
      r.engine.circuit.expiry = some (now + policy.openDuration) := by
  have hreached := reached_of_life hlife
  have took := step_took hstep
  have hpast := hreached.past took
  obtain ⟨-, -, hstarts⟩ := (took.mem_changes_iff hpast).1 hopens
  obtain ⟨w, hcircuit⟩ := took.circuit_eq hpast
  rw [hcircuit, hstarts, hreached.policy_eq]
  refine ⟨Circuit.phase_turn _ _ _ _, ?_⟩
  exact Circuit.expiry_turn hfits .opened _

/-! ## From the opening on -/

/-- As long as nobody asks after the deadline and nobody resets, the circuit is
the one that the opening left. -/
theorem still_opened (hlife : life name policy audience start schedule = some run)
    {before mid : List Stage} {s : Stage} (hstages : run.stages = before ++ s :: mid)
    (hphase : s.response.engine.circuit.phase = .opened)
    (hexpiry : s.response.engine.circuit.expiry = some deadline)
    (hreset : ∀ x ∈ mid, x.move ≠ .reset)
    (hearly : ∀ x ∈ mid, x.before.evaluates x.move = true → x.now < deadline) :
    run.engine.circuit = s.response.engine.circuit := by
  induction mid using List.reverseRecOn generalizing schedule run with
  | nil => rw [engine_eq_getLast hlife hstages]
  | append_singleton mid x ih =>
    have hconcat : run.stages = (before ++ s :: mid) ++ [x] := by simp [hstages]
    obtain ⟨first, -, hbefore, hvalid, hengine⟩ := life_eq_concat hlife hconcat
    obtain ⟨hreset, hxreset⟩ := List.forall_mem_append.1 hreset
    obtain ⟨hearly, hxearly⟩ := List.forall_mem_append.1 hearly
    have hsame : x.before.circuit = s.response.engine.circuit := ih hbefore rfl hreset hearly
    have hstays := opened_stays hbefore hvalid (hsame ▸ hphase) (hsame ▸ hexpiry)
      (hxreset x (List.mem_singleton_self x)) (hxearly x (List.mem_singleton_self x))
    rw [hengine, hstays.2, hsame]

/-! ## The answers of an open period -/

/-- What a move does while the circuit `c` is open: it leaves no trace, and the
method that it calls is bound to say that the circuit is open. -/
structure Stage.Refuses (s : Stage) (c : Circuit) (later : List Stage) : Prop where
  before_eq : s.before.circuit = c
  evaluated_eq : s.before.evaluated s.now s.move = c
  after_eq : s.response.engine.circuit = c
  changes_eq : s.changes = []
  admitted_notMem : ∀ n, .admitted n ∉ s.events
  query : s.move = .query → s.Answers later (.view ⟨.opened, c.generation, c.window⟩)
  call : s.move = .call → s.events = [] ∧ s.Answers later (.refused .opened)

/-- The method says at once that the circuit `c` is open. -/
structure Stage.RefusesAtOnce (s : Stage) (c : Circuit) : Prop where
  query : s.move = .query → s.response.reply = .view ⟨.opened, c.generation, c.window⟩
  call : s.move = .call → s.response.reply = .refused .opened

/-- What a move does that finds the open circuit `c` and makes it half open. -/
structure Stage.Ripens (s : Stage) (c : Circuit) : Prop where
  before_eq : s.before.circuit = c
  changes_eq : s.changes = [{ source := .opened, target := .halfOpen }]
  phase_eq : s.response.engine.circuit.phase = .halfOpen
  generation_eq : s.response.engine.circuit.generation = c.generation + 1
  admitted_mem : s.move = .call → .admitted s.before.nextSerial ∈ s.events

/-- The answer to a call of an open circuit, and to a query. -/
theorem response_opened {s : Stage} (hvalid : s.Valid) (hphase : s.before.circuit.phase = .opened)
    (hlapses : s.before.lapses s.now s.move = none) :
    (s.move = .query → s.response = s.before.deliver
      (.answer (.view ⟨.opened, s.before.circuit.generation, s.before.circuit.window⟩)) []) ∧
    (s.move = .call → s.response = s.before.deliver (.refuse .opened) []) := by
  have heval : s.before.evaluates s.move = true →
      s.before.circuit.evaluate s.before.policy s.now = .done s.before.circuit none :=
    fun hasks => evaluate_eq_done hasks hlapses
  unfold Stage.Valid at hvalid
  constructor
  · intro hquery
    rw [hquery] at hvalid heval
    rw [← query_opened (heval rfl) hphase]
    exact (Option.some.inj hvalid).symm
  · intro hcall
    rw [hcall] at hvalid heval
    rw [← call_opened (heval rfl) hphase]
    exact (Option.some.inj hvalid).symm

theorem invoked_deliver_refuse (e : Engine) (refusal : Refusal) (journal : List Entry) :
    invoked (e.deliver (.refuse refusal) journal).reply = [] := by
  rcases deliver_cases e (.refuse refusal) journal with ⟨t, rest, -, heq⟩ | ⟨-, heq⟩
  · rw [heq]
    rfl
  · rw [heq]
    rfl

theorem refuses_of_opened (hlife : life name policy audience start schedule = some run)
    {before later : List Stage} {s : Stage} (hstages : run.stages = before ++ s :: later)
    (hphase : s.before.circuit.phase = .opened) (hexpiry : s.before.circuit.expiry = some deadline)
    (hmove : s.move ≠ .reset) (hearly : s.now < deadline) :
    s.Refuses s.before.circuit later := by
  obtain ⟨first, last, -, hbefore, hvalid⟩ := life_split hlife hstages
  obtain ⟨hlapses, hafter⟩ := opened_stays hbefore hvalid hphase hexpiry hmove fun _ => hearly
  have hevaluated : s.before.evaluated s.now s.move = s.before.circuit :=
    evaluated_eq_circuit hlapses
  obtain ⟨hquery, hcall⟩ := response_opened hvalid hphase hlapses
  have hevents : s.move = .call → s.events = [] := by
    intro hmove
    have hadmits : s.before.admits s.now = false :=
      admits_of_error (evaluate_eq_done (by rw [hmove]; rfl) hlapses)
        (Circuit.allow_opened hphase)
    have hinvoked : invoked s.response.reply = [] := by
      rw [hcall hmove]
      exact invoked_deliver_refuse _ _ _
    rw [Stage.events, hevaluated, hafter, turned_of_generation_eq rfl, hmove]
    simp [deed, hadmits, invocation, hinvoked]
  refine ⟨rfl, hevaluated, hafter, changes_eq_nil hevaluated hafter, ?_, ?_, ?_⟩
  · intro n hadmitted
    have hcall := (move_eq_call_of_admitted hadmitted).1
    rw [hevents hcall] at hadmitted
    exact List.not_mem_nil hadmitted
  · intro hmove
    have howes : s.response.Owes s.before.frames (.answer (.view
        ⟨.opened, s.before.circuit.generation, s.before.circuit.window⟩)) := by
      rw [hquery hmove]
      exact owes_deliver rfl []
    exact answers_of_owes hlife hstages howes rfl
  · intro hmove
    have howes : s.response.Owes s.before.frames (.refuse .opened) := by
      rw [hcall hmove]
      exact owes_deliver rfl []
    exact ⟨hevents hmove, answers_of_owes hlife hstages howes rfl⟩

theorem refusesAtOnce_of_noLeftovers {s : Stage} (hvalid : s.Valid)
    (hphase : s.before.circuit.phase = .opened) (hlapses : s.before.lapses s.now s.move = none)
    (hleftovers : s.before.NoLeftovers) : s.RefusesAtOnce s.before.circuit := by
  obtain ⟨hquery, hcall⟩ := response_opened hvalid hphase hlapses
  constructor
  · intro hmove
    rw [hquery hmove, hleftovers.deliver_eq]
    rfl
  · intro hmove
    rw [hcall hmove, hleftovers.deliver_eq]
    rfl

/-- From the move that opens a circuit until the period that it starts is over,
or until a reset, every move leaves the circuit as it is, no call is admitted,
and calls and queries are answered that the circuit is open.  The first move
that asks afterwards makes the circuit half open, and if it is a call it is
admitted.

Only a panic of the listener can take an answer away: a method may have to
deliver what an earlier panic has left over.  So if there has been none, the
answer comes at once. -/
theorem open_period_of_life (hsound : policy.Sound name)
    (hlife : life name policy audience start schedule = some run)
    (hfits : ∀ entry ∈ schedule, policy.Fits entry.1) (hclock : Chronological start schedule)
    {before mid later : List Stage} {s s' : Stage} {p : Phase}
    (hstages : run.stages = before ++ s :: (mid ++ s' :: later))
    (hopens : { source := p, target := .opened } ∈ s.changes)
    (hreset : ∀ x ∈ mid ++ [s'], x.move ≠ .reset) :
    s.response.engine.circuit.phase = .opened ∧
      s.response.engine.circuit.expiry = some (s.now + policy.openDuration) ∧
      (s'.now < s.now + policy.openDuration →
        s'.Refuses s.response.engine.circuit later ∧
          ((∀ x ∈ before ++ s :: mid, x.listenerPanics = false) →
            s'.RefusesAtOnce s.response.engine.circuit)) ∧
      (s.now + policy.openDuration ≤ s'.now → s'.before.evaluates s'.move = true →
        (∀ x ∈ mid, x.before.evaluates x.move = true → x.now < s.now + policy.openDuration) →
        s'.Ripens s.response.engine.circuit) := by
  have hstages' : run.stages = (before ++ s :: mid) ++ s' :: later := by simp [hstages]
  obtain ⟨first, last, hschedule, hbefore, hvalid⟩ := life_split hlife hstages
  obtain ⟨first', last', hschedule', hbefore', hvalid'⟩ := life_split hlife hstages'
  have hnow : policy.Fits s.now := hfits (s.now, s.move) (by simp [hschedule])
  have hnow' : policy.Fits s'.now := hfits (s'.now, s'.move) (by simp [hschedule'])
  obtain ⟨hphase, hexpiry⟩ := opened_of_change hbefore hvalid hnow hopens
  obtain ⟨hreset, hmove⟩ := List.forall_mem_append.1 hreset
  have hmove : s'.move ≠ .reset := hmove s' (List.mem_singleton_self s')
  have hstill : (∀ x ∈ mid, x.before.evaluates x.move = true →
      x.now < s.now + policy.openDuration) →
      s'.before.circuit = s.response.engine.circuit :=
    still_opened hbefore' rfl hphase hexpiry hreset
  refine ⟨hphase, hexpiry, ?_, ?_⟩
  · intro hearly
    -- The clock has not gone back, so all that was asked meanwhile was early too.
    have hle : ∀ x ∈ mid, x.now ≤ s'.now := by
      have hsorted := (hclock.stages hlife).2
      rw [hstages', List.pairwise_append] at hsorted
      intro x hx
      exact hsorted.2.2 x (by simp [hx]) s' List.mem_cons_self
    have hsame := hstill fun x hx _ => Nat.lt_of_le_of_lt (hle x hx) hearly
    rw [← hsame] at hphase hexpiry ⊢
    refine ⟨refuses_of_opened hlife hstages' hphase hexpiry hmove hearly, fun hquiet => ?_⟩
    have hleftovers : s'.before.NoLeftovers :=
      noLeftovers_of_life hbefore'
        (fun entry hentry => hfits entry (by simp [hschedule', hentry])) hquiet
    have hlapses := (opened_stays hbefore' hvalid' hphase hexpiry hmove fun _ => hearly).1
    exact refusesAtOnce_of_noLeftovers hvalid' hphase hlapses hleftovers
  · intro hdue hasks hearly
    have hsame := hstill hearly
    rw [← hsame] at hphase hexpiry ⊢
    obtain ⟨hchanges, hhalf, hgeneration, hadmitted⟩ :=
      opened_lapses hsound hbefore' hvalid' hphase hexpiry hnow' hasks hdue
    exact ⟨rfl, hchanges, hhalf, hgeneration, hadmitted⟩

/-- Two stages of a run, the second some way after the first. -/
theorem stages_eq_of_getElem? {stages : List Stage} {i j : Nat} {s s' : Stage}
    (hs : stages[i]? = some s) (hs' : (stages.drop (i + 1))[j]? = some s') :
    stages = stages.take i ++ s ::
      ((stages.drop (i + 1)).take j ++ s' :: (stages.drop (i + 1)).drop (j + 1)) := by
  have hsplit : ∀ {l : List Stage} {k : Nat} {x : Stage}, l[k]? = some x →
      l = l.take k ++ x :: l.drop (k + 1) := by
    intro l k x hx
    obtain ⟨hk, rfl⟩ := List.getElem?_eq_some_iff.1 hx
    rw [← List.drop_eq_getElem_cons hk, List.take_append_drop]
  rw [← hsplit hs']
  exact hsplit hs

/-- The first failure opens the circuit at 1.  The listener, which is told of
it, calls in vain; the first call at the deadline is admitted. -/
theorem open_period_of_life_boundary :
    ∃ run ∈ life "db" { minRequests := 1, openDuration := 10 } .client 0
        [(0, .call), (1, .finish false), (10, .call), (10, .heard), (11, .call)],
      (∃ s ∈ (run.stages.drop 2)[0]?, s.response.reply = .refused .opened) ∧
      ∃ s ∈ (run.stages.drop 2)[2]?, s.changes = [{ source := .opened, target := .halfOpen }] ∧
        .admitted 1 ∈ s.events := by
  have hsound : Policy.Sound "db" { minRequests := 1, openDuration := 10 } :=
    ⟨by decide +kernel, by decide, by decide⟩
  obtain ⟨run, hlife, s, hs, r, hr, a, ha, hopens, hnow, ⟨hrmove, hrnow, hrreset, hquiet⟩,
      hamove, hanow, hareset, hearly, hserial⟩ :
      ∃ run ∈ life "db" { minRequests := 1, openDuration := 10 } .client 0
          [(0, .call), (1, .finish false), (10, .call), (10, .heard), (11, .call)],
        ∃ s ∈ run.stages[1]?, ∃ r ∈ (run.stages.drop 2)[0]?, ∃ a ∈ (run.stages.drop 2)[2]?,
          ({ source := .closed, target := .opened } : Transition) ∈ s.changes ∧ s.now = 1 ∧
          (r.move = .call ∧ r.now < 11 ∧
            (∀ x ∈ (run.stages.drop 2).take 0 ++ [r], x.move ≠ .reset) ∧
            ∀ x ∈ run.stages.take 1 ++ s :: (run.stages.drop 2).take 0,
              x.listenerPanics = false) ∧
          a.move = .call ∧ 11 ≤ a.now ∧
          (∀ x ∈ (run.stages.drop 2).take 2 ++ [a], x.move ≠ .reset) ∧
          (∀ x ∈ (run.stages.drop 2).take 2, x.now < 11) ∧ a.before.nextSerial = 1 := by
    decide +kernel
  have hfits : ∀ entry ∈ [((0 : Instant), Move.call), (1, .finish false), (10, .call),
      (10, .heard), (11, .call)],
      Policy.Fits { minRequests := 1, openDuration := 10 } entry.1 := by decide
  have hclock : Chronological 0 [((0 : Instant), Move.call), (1, .finish false), (10, .call),
      (10, .heard), (11, .call)] := by decide
  have hdeadline : s.now + 10 = (11 : Instant) := by rw [hnow]
  obtain ⟨-, -, hrefuses, -⟩ := open_period_of_life hsound hlife hfits hclock
    (stages_eq_of_getElem? hs hr) hopens hrreset
  obtain ⟨-, -, -, hripens⟩ := open_period_of_life hsound hlife hfits hclock
    (stages_eq_of_getElem? hs ha) hopens hareset
  refine ⟨run, hlife, ⟨r, hr, ?_⟩, a, ha, ?_⟩
  · exact ((hrefuses (hdeadline ▸ hrnow)).2 hquiet).call hrmove
  · have hhalf := hripens (hdeadline ▸ hanow) (by rw [hamove]; rfl)
      (fun x hx _ => hdeadline ▸ hearly x hx)
    have hadmitted := hhalf.admitted_mem hamove
    rw [hserial] at hadmitted
    exact ⟨hhalf.changes_eq, hadmitted⟩

/-! ## A call without an answer -/

/-- The listener, told of the first opening, resets the breaker, opens it again
by a failure of its own and panics.  What it was not told is left to the next
call, which finds the circuit open; the listener panics once more, out of that
call, which so ends long before the deadline and does not say that the circuit
is open. -/
theorem open_period_unanswered :
    Policy.Sound "db" { minRequests := 1 } ∧
    Chronological 0 [((0 : Instant), Move.call), (0, .finish false), (0, .reset), (0, .call),
      (0, .finish false), (0, .panic "listener"), (1, .call), (1, .panic "listener")] ∧
    (∀ entry ∈ [((0 : Instant), Move.call), (0, .finish false), (0, .reset), (0, .call),
        (0, .finish false), (0, .panic "listener"), (1, .call), (1, .panic "listener")],
      Policy.Fits { minRequests := 1 } entry.1) ∧
    ∃ run ∈ life "db" { minRequests := 1 } .client 0
        [(0, .call), (0, .finish false), (0, .reset), (0, .call), (0, .finish false),
          (0, .panic "listener"), (1, .call), (1, .panic "listener")],
      ∃ s ∈ run.stages[4]?, ∃ s' ∈ run.stages[6]?, ∃ last ∈ s'.ended (run.stages.drop 7),
        { source := .closed, target := .opened } ∈ s.changes ∧
          (∀ x ∈ run.stages.drop 5, x.move ≠ .reset) ∧
          s'.move = .call ∧ s.now ≤ s'.now ∧
          s'.now < s.now + Policy.openDuration { minRequests := 1 } ∧
          last.response.reply = .panicked "listener" := by
  refine ⟨⟨by decide +kernel, by decide, by decide⟩, by decide, by decide, ?_⟩
  decide +kernel

end

end Engine

end Breaker
