import Breaker.Proofs.Generation
import Breaker.Proofs.Methods

/-!
# Windows without length

A policy may give its closed windows no length.  Such a window is over at the
instant at which it begins, so whoever asks finds it over and starts the next
one.  No call ends in the window that admitted it, and the counters are always
those of a window that has just begun.

* `Transient` is the invariant: the circuit is closed, and its deadline is one
  of the instants at which something was done;
* `Transient.evaluate_eq` is what a clock that never goes back makes of it:
  the window is over, whatever the move;
* `Stage.LeavesNothing` says what one move does, and `Transient.step` that
  every move does so.

Nothing is supposed of the other settings or of the listener, which is never
called.  The clock must only hold the instants themselves.
-/

namespace Breaker

/-- A closed window that begins and ends at the given instant. -/
def Circuit.renewed (now : Instant) (c : Circuit) : Circuit :=
  { phase := .closed, generation := c.generation + 1, window := {}, expiry := some now }

namespace Engine

/-- The circuit is closed, its deadline is one of the given instants, and there
is nothing to deliver. -/
structure Transient (instants : List Instant) (e : Engine) : Prop where
  phase_eq : e.circuit.phase = .closed
  expiry : ∃ instant ∈ instants, e.circuit.expiry = some instant
  delivered : e.AllDelivered

/-- What a move does to a breaker whose windows have no length. -/
structure Stage.LeavesNothing (s : Stage) : Prop where
  /-- Whoever asks starts the next generation. -/
  generation_eq : s.before.evaluates s.move = true →
    s.response.engine.circuit.generation = s.before.circuit.generation + 1
  /-- Every call is let through, and its operation is invoked at once. -/
  admits : s.move = .call → ∃ t, s.response.reply = .operating t
  /-- A query shows an empty window. -/
  shows : s.move = .query → ∃ v, s.response.reply = .view v ∧ v.phase = .closed ∧
    v.window = {} ∧ v.window.failureRate = .zero
  /-- The end of a call is noted as stale and nowhere counted, and comes back
  with the operation's own result. -/
  discards : ∀ t success, s.before.ending s.move = some (t, success) →
    s.response.reply = s.move.outcome ∧ s.response.engine.circuit.window = {} ∧
      s.response.journal = s.before.cutNote s.move ++
        [.stale t s.response.engine.circuit.generation success]
  /-- The circuit stays closed, and the listener is told of nothing. -/
  changes_eq : s.changes = []
  told_eq : toldBy s.response.reply = []

section

variable {instants : List Instant} {e : Engine} {now : Instant} {move : Move} {r : Response}

/-- The turn of a closed circuit whose windows have no length. -/
theorem turn_closed (hzero : e.policy.closedWindow = 0) (hheld : now < Clock.horizon)
    (hphase : e.circuit.phase = .closed) :
    e.circuit.turn e.policy now (some .closed) = .done (e.circuit.renewed now) none := by
  have hdeadline : Clock.deadline? now e.policy.closedWindow = some now := by
    rw [hzero]
    exact Clock.deadline?_eq_some hheld
  simp [Circuit.turn, Circuit.startPeriod, Policy.period, hdeadline, hphase, Circuit.renewed]

/-- The window is over at whatever instant it is asked for. -/
theorem Transient.evaluate_eq (h : e.Transient instants) (hzero : e.policy.closedWindow = 0)
    (hlater : ∀ instant ∈ instants, instant ≤ now) (hheld : now < Clock.horizon) :
    e.circuit.evaluate e.policy now = .done (e.circuit.renewed now) none := by
  obtain ⟨instant, hmem, hexpiry⟩ := h.expiry
  have hdue : e.circuit.isDue now = true := by
    simp [Circuit.isDue, h.phase_eq, hexpiry, hlater instant hmem]
  rw [Circuit.evaluate_eq_turn, Circuit.lapse, if_pos hdue, if_pos h.phase_eq]
  exact turn_closed hzero hheld h.phase_eq

/-- With nothing to deliver a method ends at once. -/
theorem deliver_of_empty {e : Engine} (hmailbox : e.mailbox = {}) (sequel : Sequel)
    (journal : List Entry) : e.deliver sequel journal = e.conclude sequel journal :=
  NoLeftovers.deliver_eq (fun _ => by rw [hmailbox]) sequel journal

/-- A method that makes no change of phase ends at once. -/
theorem deliver_accept_none {e : Engine} (hmailbox : e.mailbox = {}) (c : Circuit)
    (sequel : Sequel) (journal : List Entry) :
    (e.accept c none).deliver sequel journal =
      ({ e with circuit := c } : Engine).conclude sequel journal := by
  rw [accept, Mailbox.push_none]
  apply deliver_of_empty
  exact hmailbox

/-- A renewed window is over at the instant at which it was renewed. -/
theorem transient_renewed {e' : Engine} {w : Window} (hdelivered : e'.AllDelivered)
    (hcircuit : e'.circuit = { e.circuit.renewed now with window := w }) :
    e'.Transient (instants ++ [now]) where
  phase_eq := by
    rw [hcircuit]
    rfl
  expiry := ⟨now, by simp, by rw [hcircuit]; rfl⟩
  delivered := hdelivered

/-! ## The response to each move -/

theorem Transient.query_eq (h : e.Transient instants)
    (heval : e.circuit.evaluate e.policy now = .done (e.circuit.renewed now) none) :
    e.query now =
      { engine := { e with circuit := e.circuit.renewed now }
        reply := .view (e.circuit.renewed now).view } := by
  rw [query_of_done heval, deliver_accept_none h.delivered.mailbox_eq]
  rfl

theorem Transient.reset_eq (h : e.Transient instants)
    (hreset : e.circuit.reset e.policy now = .done (e.circuit.renewed now) none) :
    e.reset now =
      { engine := { e with circuit := e.circuit.renewed now }
        reply := .wasReset
        journal := [.reset] } := by
  rw [reset_of_done hreset, deliver_accept_none h.delivered.mailbox_eq]
  rfl

theorem Transient.call_eq (h : e.Transient instants)
    (heval : e.circuit.evaluate e.policy now = .done (e.circuit.renewed now) none) :
    ∃ journal, e.call now =
      { engine :=
          { e with
            circuit := { e.circuit.renewed now with window := ({} : Window).arrive }
            nextSerial := e.nextSerial + 1
            frames := .operating (e.nextTicket (e.circuit.renewed now)) :: e.frames }
        reply := .operating (e.nextTicket (e.circuit.renewed now))
        journal } := by
  have hallow : (e.circuit.renewed now).allow e.policy =
      .ok { e.circuit.renewed now with window := ({} : Window).arrive } := rfl
  rw [call_of_ok heval hallow, accept, Mailbox.push_none]
  refine ⟨_, deliver_of_empty ?_ _ _⟩
  exact h.delivered.mailbox_eq

/-- The window that admitted the call is over, so its end is stale. -/
theorem Transient.end_eq (h : e.Transient instants)
    (heval : e.circuit.evaluate e.policy now = .done (e.circuit.renewed now) none)
    {e' : Engine} {t : Ticket} {success : Bool} {sequel : Sequel}
    (hends : e.Ends move t success e' sequel) (hpast : t.generation ≤ e.circuit.generation) :
    e.step now move = some
      { engine := { e' with circuit := e.circuit.renewed now }
        reply := move.outcome
        journal := e.cutNote move ++ [.stale t (e.circuit.generation + 1) success] } := by
  have hsame : e'.circuit = e.circuit ∧ e'.policy = e.policy := by
    cases hends <;> exact ⟨rfl, rfl⟩
  have hmailbox : e'.mailbox = {} := hends.listeners_eq.1.trans h.delivered.mailbox_eq
  have hstale : t.generation ≠ (e.circuit.renewed now).generation := by
    show t.generation ≠ e.circuit.generation + 1
    omega
  rw [← hsame.1, ← hsame.2] at heval
  rw [hends.step_eq now, report_of_stale _ heval (hsame.1 ▸ hstale), deliver_accept_none hmailbox,
    hsame.1]
  cases hends <;> rfl

/-! ## One move -/

/-- A closed circuit that stays closed has changed nothing. -/
theorem Transient.changes_eq (h : e.Transient instants)
    (hafter : r.engine.Transient (instants ++ [now])) :
    Stage.changes { before := e, now, move, response := r } = [] := by
  have hevaluated : (e.evaluated now move).phase = .closed := evaluated_closed h.phase_eq
  simp [Stage.changes, h.phase_eq, hafter.phase_eq, hevaluated]

/-- What a move has to show for itself. -/
def Passes (instants : List Instant) (e : Engine) (now : Instant) (move : Move) (r : Response) :
    Prop :=
  r.engine.Transient (instants ++ [now]) ∧
    Stage.LeavesNothing { before := e, now, move, response := r }

theorem Transient.passes_query (h : e.Transient instants)
    (heval : e.circuit.evaluate e.policy now = .done (e.circuit.renewed now) none) :
    e.Passes instants now .query (e.query now) := by
  rw [h.query_eq heval]
  have hafter : ({ e with circuit := e.circuit.renewed now } : Engine).Transient
      (instants ++ [now]) := transient_renewed ⟨h.delivered.mailbox_eq, h.delivered.outside⟩ rfl
  exact ⟨hafter,
    { generation_eq := fun _ => rfl
      admits := nofun
      shows := fun _ => ⟨_, rfl, rfl, rfl, rfl⟩
      discards := nofun
      changes_eq := h.changes_eq hafter
      told_eq := rfl }⟩

theorem Transient.passes_reset (h : e.Transient instants)
    (hreset : e.circuit.reset e.policy now = .done (e.circuit.renewed now) none) :
    e.Passes instants now .reset (e.reset now) := by
  rw [h.reset_eq hreset]
  have hafter : ({ e with circuit := e.circuit.renewed now } : Engine).Transient
      (instants ++ [now]) := transient_renewed ⟨h.delivered.mailbox_eq, h.delivered.outside⟩ rfl
  exact ⟨hafter,
    { generation_eq := nofun
      admits := nofun
      shows := nofun
      discards := nofun
      changes_eq := h.changes_eq hafter
      told_eq := rfl }⟩

theorem Transient.passes_call (h : e.Transient instants)
    (heval : e.circuit.evaluate e.policy now = .done (e.circuit.renewed now) none) :
    e.Passes instants now .call (e.call now) := by
  obtain ⟨journal, hcall⟩ := h.call_eq heval
  rw [hcall]
  have hafter : ({ e with
      circuit := { e.circuit.renewed now with window := ({} : Window).arrive }
      nextSerial := e.nextSerial + 1
      frames := .operating (e.nextTicket (e.circuit.renewed now)) :: e.frames } :
      Engine).Transient (instants ++ [now]) :=
    transient_renewed
      ⟨h.delivered.mailbox_eq, (listeners_operating _ _).trans h.delivered.outside⟩ rfl
  exact ⟨hafter,
    { generation_eq := fun _ => rfl
      admits := fun _ => ⟨_, rfl⟩
      shows := nofun
      discards := nofun
      changes_eq := h.changes_eq hafter
      told_eq := rfl }⟩

theorem Transient.passes_end (h : e.Transient instants)
    (heval : e.circuit.evaluate e.policy now = .done (e.circuit.renewed now) none)
    {e' : Engine} {t : Ticket} {success : Bool} {sequel : Sequel}
    (hends : e.Ends move t success e' sequel) (hpast : t.generation ≤ e.circuit.generation)
    (hstep : e.step now move = some r) : e.Passes instants now move r := by
  rw [h.end_eq heval hends hpast] at hstep
  cases hstep
  obtain ⟨hmailbox, hlisteners⟩ := hends.listeners_eq
  have hafter : ({ e' with circuit := e.circuit.renewed now } : Engine).Transient
      (instants ++ [now]) :=
    transient_renewed
      ⟨hmailbox.trans h.delivered.mailbox_eq, hlisteners.trans h.delivered.outside⟩ rfl
  refine ⟨hafter,
    { generation_eq := fun _ => rfl
      admits := ?_
      shows := ?_
      discards := ?_
      changes_eq := h.changes_eq hafter
      told_eq := ?_ }⟩
  · rintro rfl
    cases hends
  · rintro rfl
    cases hends
  · intro t' success' hending
    cases hends.ending.symm.trans hending
    exact ⟨rfl, rfl, rfl⟩
  · cases hends <;> rfl

/-- An operation waits or goes on, and the breaker is not asked. -/
theorem Transient.passes_pause (h : e.Transient instants) (hpauses : e.Pauses move r) :
    e.Passes instants now move r := by
  obtain ⟨⟨t, hpause⟩, ⟨frames, suspended, hengine, hlisteners⟩, -⟩ := hpauses
  have hafter : r.engine.Transient (instants ++ [now]) := by
    obtain ⟨instant, hmem, hexpiry⟩ := h.expiry
    rw [hengine]
    exact ⟨h.phase_eq, ⟨instant, List.mem_append_left _ hmem, hexpiry⟩, h.delivered.mailbox_eq,
      hlisteners.trans h.delivered.outside⟩
  have hchanges : Stage.changes { before := e, now, move, response := r } = [] :=
    h.changes_eq hafter
  have htold : toldBy r.reply = [] := by
    rcases hpause with ⟨-, hreply⟩ | ⟨-, hreply⟩ <;> rw [hreply] <;> rfl
  rcases hpause with ⟨rfl, -⟩ | ⟨rfl, -⟩ <;>
    exact ⟨hafter,
      { generation_eq := nofun
        admits := nofun
        shows := nofun
        discards := nofun
        changes_eq := hchanges
        told_eq := htold }⟩

/-- No move leaves anything behind, and whatever it does, the next window is
over at an instant that has come. -/
theorem Transient.step (h : e.Transient instants) (hzero : e.policy.closedWindow = 0)
    (hlater : ∀ instant ∈ instants, instant ≤ now) (hheld : now < Clock.horizon)
    (hpast : e.Past move) (hstep : e.step now move = some r) : e.Passes instants now move r := by
  have heval := h.evaluate_eq hzero hlater hheld
  cases step_outside h.delivered.outside hstep with
  | query => exact h.passes_query heval
  | reset => exact h.passes_reset (turn_closed hzero hheld h.phase_eq)
  | call => exact h.passes_call heval
  | ends hends => exact h.passes_end heval hends (hpast _ _ hends.ending) hstep
  | pauses hpauses => exact h.passes_pause hpauses

end

/-! ## Lives -/

section

variable {name : String} {policy : Policy} {audience : Audience} {start : Instant}
variable {schedule : List (Instant × Move)} {run : Run}

/-- A life whose windows have no length, so far. -/
structure Vanishes (policy : Policy) (instants : List Instant) (run : Run) : Prop where
  reached : Reached policy run
  transient : run.engine.Transient instants
  changes_eq : run.changes = []
  told_eq : run.told = []
  stages : ∀ s ∈ run.stages, s.LeavesNothing

theorem vanishes_new (hzero : policy.closedWindow = 0) {e : Engine}
    (hnew : new? name policy audience start = some e) :
    Vanishes policy [start] { engine := e } where
  reached := reached_new hnew
  transient := by
    obtain ⟨hframes, -, hmailbox, -, hphase, -⟩ := new?_eq_some hnew
    have hexpiry : e.circuit.expiry = some start := by
      rw [(expiry_new hnew).1, hzero]
      rfl
    exact ⟨hphase, ⟨start, List.mem_singleton_self _, hexpiry⟩, hmailbox, by rw [hframes]; rfl⟩
  changes_eq := rfl
  told_eq := rfl
  stages := by simp

theorem Vanishes.snoc {instants : List Instant} {s : Stage} (h : Vanishes policy instants run)
    (hzero : policy.closedWindow = 0) (hlater : ∀ instant ∈ instants, instant ≤ s.now)
    (hheld : s.now < Clock.horizon) (hbefore : run.engine = s.before) (hvalid : s.Valid) :
    Vanishes policy (instants ++ [s.now]) (run.snoc s) := by
  have htransient := hbefore ▸ h.transient
  have hpolicy : s.before.policy = policy := hbefore ▸ h.reached.policy_eq
  have hpast : s.before.Past s.move := hbefore ▸ h.reached.past (hbefore ▸ step_took hvalid)
  obtain ⟨hafter, hstage⟩ := htransient.step (hpolicy ▸ hzero) hlater hheld hpast hvalid
  exact
    { reached := h.reached.snoc hbefore hvalid
      transient := hafter
      changes_eq := by rw [Run.changes_snoc, h.changes_eq, hstage.changes_eq]; rfl
      told_eq := by rw [Run.told_snoc, h.told_eq, hstage.told_eq]; rfl
      stages := List.forall_mem_append.2 ⟨h.stages, List.forall_mem_singleton.2 hstage⟩ }

theorem vanishes_of_life (hzero : policy.closedWindow = 0) (hclock : Chronological start schedule)
    (hheld : ∀ entry ∈ schedule, entry.1 < Clock.horizon)
    (hlife : life name policy audience start schedule = some run) :
    Vanishes policy (start :: schedule.map Prod.fst) run := by
  induction schedule using List.reverseRecOn generalizing run with
  | nil =>
    obtain ⟨e, hnew, hrun⟩ := Option.bind_eq_some_iff.1 hlife
    cases hrun
    exact vanishes_new hzero hnew
  | append_singleton rest entry ih =>
    obtain ⟨first, response, hfirst, hstep, rfl⟩ := life_concat hlife
    rw [Chronological, List.map_append, ← List.cons_append, List.pairwise_append] at hclock
    obtain ⟨hearlier, -, hlater⟩ := hclock
    have hrest := ih hearlier (fun entry hmem => hheld entry (List.mem_append_left _ hmem)) hfirst
    rw [List.map_append, ← List.cons_append]
    have hlast : ∀ instant ∈ start :: rest.map Prod.fst, instant ≤ entry.1 := fun instant hmem =>
      hlater instant hmem entry.1 (List.mem_singleton_self _)
    refine Vanishes.snoc
      (s := { before := first.engine, now := entry.1, move := entry.2, response })
      hrest hzero hlast (hheld entry ?_) rfl hstep
    exact List.mem_append_right _ (List.mem_singleton_self _)

/-- A breaker whose windows have no length keeps no history.  When the clock
never goes back, then whatever calls overlap, nest, fail, panic or are given up,

* the circuit is closed at every point, and no change of phase is ever made,
  queued or told;
* every move that asks starts the next generation;
* every call is let through, every query shows an empty window, and the end of
  every call is stale. -/
theorem zero_window_of_life (hzero : policy.closedWindow = 0)
    (hclock : Chronological start schedule)
    (hheld : ∀ entry ∈ schedule, entry.1 < Clock.horizon)
    (hlife : life name policy audience start schedule = some run) :
    run.engine.circuit.phase = .closed ∧ run.engine.mailbox.pending = [] ∧
      run.changes = [] ∧ run.told = [] ∧ ∀ s ∈ run.stages, s.LeavesNothing := by
  obtain ⟨-, htransient, hchanges, htold, hstages⟩ := vanishes_of_life hzero hclock hheld hlife
  exact ⟨htransient.phase_eq, by rw [htransient.delivered.mailbox_eq], hchanges, htold, hstages⟩

/-- Three calls overlap at one instant, one fails inside another, one panics and
one is given up; a single failure would do to open the circuit. -/
theorem zero_window_of_life_overlapping :
    Policy.closedWindow { closedWindow := 0, minRequests := 0 } = 0 ∧
    Chronological 5 [((5 : Instant), Move.call), (5, .suspend), (5, .call), (5, .call),
      (5, .finish false), (5, .panic "operation"), (5, .abandon ⟨0, 1⟩), (6, .query)] ∧
    ∃ run ∈ life "db" { closedWindow := 0, minRequests := 0 } .client 5
        [(5, .call), (5, .suspend), (5, .call), (5, .call), (5, .finish false),
          (5, .panic "operation"), (5, .abandon ⟨0, 1⟩), (6, .query)],
      run.engine.circuit.phase = .closed ∧ run.changes = [] ∧
        run.engine.circuit.generation = 7 ∧
        ∃ s ∈ run.stages[4]?, s.response.journal = [.stale ⟨2, 3⟩ 4 false] := by
  have hclock : Chronological 5 [((5 : Instant), Move.call), (5, .suspend), (5, .call), (5, .call),
      (5, .finish false), (5, .panic "operation"), (5, .abandon ⟨0, 1⟩), (6, .query)] := by decide
  obtain ⟨run, hlife, hgeneration, s, hs, hmove, hending, hcut, hcurrent⟩ :
      ∃ run ∈ life "db" { closedWindow := 0, minRequests := 0 } .client 5
          [(5, .call), (5, .suspend), (5, .call), (5, .call), (5, .finish false),
            (5, .panic "operation"), (5, .abandon ⟨0, 1⟩), (6, .query)],
        run.engine.circuit.generation = 7 ∧ ∃ s ∈ run.stages[4]?, s.move = .finish false ∧
          s.before.ending s.move = some (⟨2, 3⟩, false) ∧ s.before.cutNote s.move = [] ∧
          s.response.engine.circuit.generation = 4 := by
    decide +kernel
  obtain ⟨hphase, -, hchanges, -, hstages⟩ :=
    zero_window_of_life rfl hclock (by decide) hlife
  have hstale := ((hstages s (List.mem_of_getElem? hs)).discards _ _ hending).2.2
  rw [hcut, hcurrent] at hstale
  exact ⟨rfl, hclock, run, hlife, hphase, hchanges, hgeneration, s, hs, hstale⟩

end

end Engine

end Breaker
