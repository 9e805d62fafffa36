import Breaker.Proofs.Answer
import Breaker.Proofs.Crew
import Breaker.Proofs.Methods
import Breaker.Scenario.Run

/-!
# A dependency that does not fail

Only a failure opens a closed circuit, and only when it is reported.  So a
simulation whose operations all succeed leaves a closed breaker alone, whatever
its window holds: it need not even be far from opening.  One thing must not be
there, a transition that waits and that nobody delivers.  The first call would
hand it to the listener, which may do as it likes.

* `Engine.ClosedNoLeftovers` is the breaker between two moves, and `StaysClosed` a
  move that leaves it so.  The four moves that workers make do.
* `Engine.RunsClosedTo`: from one breaker to another leads a run in which nothing
  is announced and nobody is told, closed at every stage.
* `ClosedSince` is a world whose breaker has come so from the one at the start.
* `Healthy` is the invariant of a crew whose operations succeed, kept by every
  stride.
* `OnTime` bounds the clock of a simulation: all sleeps together take no longer
  than as many latencies as there are calls.
-/

namespace Breaker

theorem Policy.Fits.mono {policy : Policy} {now limit : Instant} (h : policy.Fits limit)
    (hle : now ≤ limit) : policy.Fits now := by
  obtain ⟨hclosed, hopen⟩ := h
  exact ⟨Nat.lt_of_le_of_lt (Nat.add_le_add_right hle _) hclosed,
    Nat.lt_of_le_of_lt (Nat.add_le_add_right hle _) hopen⟩

/-- At a failure rate of zero no operation fails. -/
theorem Workload.fails_eq_false {w : Workload} (hrate : w.failureRate = .zero)
    (seed number : Nat) : w.fails seed number = false := by
  have hone : Binary64.one.le .zero = false := by decide +kernel
  have hzero : Binary64.zero.le .zero = true := by decide
  rw [fails, hrate, hone, hzero]
  rfl

namespace Circuit

variable {policy : Policy} {now : Instant} {c : Circuit}

/-- Time does nothing to the phase of a closed circuit. -/
theorem evaluate_of_closed (hfits : policy.Fits now) (hclosed : c.phase = .closed) :
    ∃ c', c.evaluate policy now = .done c' none ∧ c'.phase = .closed := by
  have hstill : (c.evaluate policy now).circuit.phase = .closed := evaluate_closed hclosed
  cases heval : c.evaluate policy now with
  | overflow c' => exact absurd heval (evaluate_ne_overflow hfits c c')
  | done c' change =>
    rw [heval] at hstill
    have hchange := evaluate_change heval
    rw [hclosed, show c'.phase = .closed from hstill, Phase.change_self] at hchange
    exact ⟨c', by rw [hchange], hstill⟩

theorem allow_closed (policy : Policy) (hclosed : c.phase = .closed) :
    c.allow policy = .ok { c with window := c.window.arrive } := by
  simp only [allow, hclosed]

/-- A success does nothing to the phase of a closed circuit. -/
theorem succeed_closed (policy : Policy) (now : Instant) (hclosed : c.phase = .closed) :
    c.settle policy now true = .done { c with window := c.window.succeed } none := by
  simp [settle, succeed, hclosed]

end Circuit

namespace Engine

variable {e e' : Engine} {now : Instant} {move : Move} {r : Response}

/-! ## Moves that leave the circuit closed -/

/-- The circuit is closed, and no transition is left over. -/
structure ClosedNoLeftovers (e : Engine) : Prop where
  closed : e.circuit.phase = .closed
  noLeftovers : e.NoLeftovers

/-- A move that comes back at once, hands nothing over, and leaves the circuit
closed and the mailbox as it was. -/
structure StaysClosed (e : Engine) (now : Instant) (move : Move) (r : Response) : Prop where
  step_eq : e.step now move = some r
  told_eq : toldBy r.reply = []
  closed : r.engine.circuit.phase = .closed
  mailbox_eq : r.engine.mailbox = e.mailbox
  policy_eq : r.engine.policy = e.policy

theorem StaysClosed.closedNoLeftovers (h : e.StaysClosed now move r)
    (hbefore : e.ClosedNoLeftovers) : r.engine.ClosedNoLeftovers where
  closed := h.closed
  noLeftovers := hbefore.noLeftovers.of_mailbox_eq h.mailbox_eq

/-- Without leftovers the method ends at once. -/
theorem ClosedNoLeftovers.deliver_eq (h : e.ClosedNoLeftovers)
    (hmailbox : e'.mailbox = e.mailbox) (sequel : Sequel) (journal : List Entry) :
    e'.deliver sequel journal = e'.conclude sequel journal :=
  (h.noLeftovers.of_mailbox_eq hmailbox).deliver_eq sequel journal

/-- A call is admitted. -/
theorem exists_staysClosed_call (hbefore : e.ClosedNoLeftovers) (hfits : e.policy.Fits now) :
    ∃ t r, e.StaysClosed now .call r ∧ r.reply = .operating t ∧
      r.engine.frames = .operating t :: e.frames ∧ r.engine.suspended = e.suspended := by
  obtain ⟨c, heval, hc⟩ := Circuit.evaluate_of_closed hfits hbefore.closed
  have hcall := call_of_ok heval (Circuit.allow_closed e.policy hc)
  have hmailbox := Mailbox.push_none e.mailbox
  have hstep := hcall.trans (hbefore.deliver_eq hmailbox _ _)
  exact ⟨_, _, ⟨congrArg some hstep, rfl, hc, hmailbox, rfl⟩, rfl, rfl, rfl⟩

/-- The operation waits. -/
theorem exists_staysClosed_suspend (now : Instant) (hbefore : e.ClosedNoLeftovers) {t : Ticket}
    {frames : List Frame} (hframes : e.frames = .operating t :: frames) :
    ∃ r, e.StaysClosed now .suspend r ∧ r.engine.suspended = t :: e.suspended := by
  have hstep : e.step now .suspend =
      some
        { engine := { e with frames, suspended := t :: e.suspended }
          reply := .suspended t } := by
    simp only [step, hframes]
  exact ⟨_, ⟨hstep, rfl, hbefore.closed, rfl, rfl⟩, rfl⟩

/-- The operation goes on. -/
theorem exists_staysClosed_resume (now : Instant) (hbefore : e.ClosedNoLeftovers) {t : Ticket}
    (hmem : t ∈ e.suspended) :
    ∃ r, e.StaysClosed now (.resume t) r ∧ r.engine.frames = .operating t :: e.frames ∧
      r.engine.suspended = e.suspended.erase t :=
  ⟨_, ⟨if_pos hmem, rfl, hbefore.closed, rfl, rfl⟩, rfl, rfl⟩

/-- The operation succeeds, in its own period or in a later one. -/
theorem exists_staysClosed_finish (hbefore : e.ClosedNoLeftovers) (hfits : e.policy.Fits now)
    {t : Ticket} {frames : List Frame} (hframes : e.frames = .operating t :: frames) :
    ∃ r, e.StaysClosed now (.finish true) r ∧ r.reply = .completed true ∧
      r.engine.suspended = e.suspended := by
  obtain ⟨c, heval, hc⟩ := Circuit.evaluate_of_closed hfits hbefore.closed
  have hstep := (Ends.finish true hframes).step_eq now
  by_cases hcurrent : t.generation = c.generation
  · have hsettle := Circuit.succeed_closed e.policy now hc
    have hmailbox : (e.mailbox.push none).push none = e.mailbox := by simp
    rw [report_of_current (e := { e with frames }) _ heval hcurrent hsettle,
      hbefore.deliver_eq hmailbox] at hstep
    exact ⟨_, ⟨hstep, rfl, hc, hmailbox, rfl⟩, rfl, rfl⟩
  · have hmailbox := Mailbox.push_none e.mailbox
    rw [report_of_stale (e := { e with frames }) _ heval hcurrent,
      hbefore.deliver_eq hmailbox] at hstep
    exact ⟨_, ⟨hstep, rfl, hc, hmailbox, rfl⟩, rfl, rfl⟩

/-! ## Closed at every stage -/

/-- From one breaker to the other leads a run in which the circuit is closed
before and after every move, no transition is announced, and none is handed to
the listener. -/
def RunsClosedTo (e e' : Engine) : Prop :=
  ∃ schedule run, e.run schedule = some run ∧ run.engine = e' ∧ run.changes = [] ∧
    run.told = [] ∧
    ∀ s ∈ run.stages, s.before.circuit.phase = .closed ∧ s.response.engine.circuit.phase = .closed

theorem runsClosedTo_self (e : Engine) : e.RunsClosedTo e :=
  ⟨[], _, run_nil e, rfl, rfl, rfl, by simp⟩

theorem RunsClosedTo.step (h : e.RunsClosedTo e') (hbefore : e'.ClosedNoLeftovers)
    (hmove : e'.StaysClosed now move r) : e.RunsClosedTo r.engine := by
  obtain ⟨schedule, run, hrun, rfl, hchanges, htold, hclosed⟩ := h
  have hnone : Stage.changes { before := run.engine, now, move, response := r } = [] := by
    have hevaluated : (run.engine.evaluated now move).phase = .closed :=
      evaluated_closed hbefore.closed
    simp only [Stage.changes, hevaluated, hbefore.closed, hmove.closed, Phase.change_self]
    rfl
  refine ⟨_, _, run_snoc hrun hmove.step_eq, rfl, ?_, ?_, ?_⟩
  · rw [Run.changes_snoc, hchanges, hnone]
    rfl
  · rw [Run.told_snoc, htold, hmove.told_eq]
    rfl
  · rw [Run.snoc, List.forall_mem_append, List.forall_mem_singleton]
    exact ⟨hclosed, hbefore.closed, hmove.closed⟩

end Engine

namespace Simulation

open Engine

variable {σ : Type} {host : Host σ} {engine : σ → Engine} {w : Workload} {seed : Nat}
variable {e : Engine} {limit : Instant} {world : σ} {worker : Worker} {others : List Worker}

/-! ## The world between two strides -/

/-- Time passes in sleeps only, if the listener is not called, and nothing else
happens in them. -/
structure Host.Virtual (host : Host σ) (engine : σ → Engine) : Prop where
  now_send : ∀ world move first, (engine world).step (host.now world) move = some first →
    toldBy first.reply = [] → host.now (host.send move world).1 = host.now world
  now_sleep : ∀ wake world, host.now (host.sleepUntil wake world) = max (host.now world) wake
  engine_sleep : ∀ wake world, engine (host.sleepUntil wake world) = engine world

theorem Host.quietHost_virtual : CommandLine.quietHost.Virtual Prod.snd where
  now_send := by
    intro world move first hstep _
    simp only [CommandLine.quietHost, stepQuiet] at hstep ⊢
    rw [hstep]
    rfl
  now_sleep _ _ := rfl
  engine_sleep _ _ := rfl

/-- A run that is closed at every stage has led from `e` to the breaker of the
world.  No transition is left over there, and the clock can hold its deadlines. -/
structure ClosedSince (host : Host σ) (engine : σ → Engine) (limit : Instant) (e : Engine)
    (world : σ) : Prop where
  runs : e.RunsClosedTo (engine world)
  state : (engine world).ClosedNoLeftovers
  fits : (engine world).policy.Fits limit
  now_le : host.now world ≤ limit

theorem ClosedSince.fits_now (h : ClosedSince host engine limit e world) :
    (engine world).policy.Fits (host.now world) :=
  h.fits.mono h.now_le

/-- A move that leaves the circuit closed comes back from the host at once. -/
theorem ClosedSince.send (h : ClosedSince host engine limit e world) (hserves : host.Serves engine)
    (hvirtual : host.Virtual engine) {move : Move} {r : Response}
    (hmove : (engine world).StaysClosed (host.now world) move r) (hheard : move ≠ .heard)
    (hpanic : ∀ text, move ≠ .panic text) :
    ∃ after, host.send move world = (after, r.reply) ∧ engine after = r.engine ∧
      host.now after = host.now world ∧ ClosedSince host engine limit e after := by
  have hnow := hvirtual.now_send world move r hmove.step_eq hmove.told_eq
  obtain ⟨answer, ⟨first, hstep, hback⟩, hengine, hreply⟩ :=
    hserves world move (by rw [hmove.step_eq]; rfl) hheard hpanic
  cases hstep.symm.trans hmove.step_eq
  cases hback with
  | atOnce htold =>
    refine ⟨(host.send move world).1, Prod.ext rfl hreply, hengine, hnow, ?_, ?_, ?_, ?_⟩
    · rw [hengine]
      exact h.runs.step h.state hmove
    · rw [hengine]
      exact hmove.closedNoLeftovers h.state
    · rw [hengine, hmove.policy_eq]
      exact h.fits
    · rw [hnow]
      exact h.now_le
  | afterListener hcalled =>
    have htold := hmove.told_eq
    rw [hcalled] at htold
    cases htold

/-! ## One stride of a worker -/

/-- The call of the worker that is under way. -/
def Worker.ticket? (worker : Worker) : Option Ticket :=
  match worker.activity with
  | .operating t => some t
  | _ => none

/-- All calls of the worker have succeeded so far, and it goes on. -/
structure Worker.Thrives (worker : Worker) : Prop where
  outcomes_eq : worker.outcomes = { succeeded := worker.outcomes.succeeded }
  awake : worker.activity = .ready ∨ ∃ t, worker.activity = .operating t

/-- The breaker has been closed all along, all calls of the workers have succeeded
so far, and those under way are suspended. -/
structure Healthy (host : Host σ) (engine : σ → Engine) (limit : Instant) (e : Engine) (world : σ)
    (workers : List Worker) : Prop where
  closedSince : ClosedSince host engine limit e world
  suspended : ∃ foreign,
    (engine world).suspended.Perm (workers.filterMap Worker.ticket? ++ foreign)
  thrives : ∀ worker ∈ workers, worker.Thrives

theorem Healthy.perm {workers workers' : List Worker}
    (h : Healthy host engine limit e world workers) (hperm : workers.Perm workers') :
    Healthy host engine limit e world workers' := by
  obtain ⟨foreign, hsuspended⟩ := h.suspended
  refine ⟨h.closedSince, ⟨foreign, hsuspended.trans ?_⟩, fun worker hworker => ?_⟩
  · exact (hperm.filterMap _).append_right foreign
  · exact h.thrives worker (hperm.mem_iff.2 hworker)

/-- The worker's next call is admitted, and its operation waits. -/
theorem Healthy.ask {left : Nat} {outcomes : Outcomes}
    (h : Healthy host engine limit e world ({ left := left + 1, outcomes } :: others))
    (hserves : host.Serves engine) (hvirtual : host.Virtual engine) :
    ∃ after t,
      Worker.ask host world { left := left + 1, outcomes } left =
        (after, { left, outcomes, activity := .operating t }) ∧
      host.now after = host.now world ∧
      Healthy host engine limit e after ({ left, outcomes, activity := .operating t } :: others) := by
  obtain ⟨hthrives, hothers⟩ := List.forall_mem_cons.1 h.thrives
  obtain ⟨foreign, hsuspended⟩ := h.suspended
  obtain ⟨t, r, hcall, hreply, hframes, hkept⟩ :=
    exists_staysClosed_call h.closedSince.state h.closedSince.fits_now
  obtain ⟨called, hsend, hengine, hnow, hsince⟩ :=
    h.closedSince.send hserves hvirtual hcall nofun nofun
  rw [← hengine] at hframes hkept
  obtain ⟨r', hsuspend, hwaiting⟩ :=
    exists_staysClosed_suspend (host.now called) hsince.state hframes
  obtain ⟨after, hsend', hengine', hnow', hsince'⟩ :=
    hsince.send hserves hvirtual hsuspend nofun nofun
  rw [← hengine', hkept] at hwaiting
  refine ⟨after, t, ?_, hnow'.trans hnow, hsince', ⟨foreign, ?_⟩, ?_⟩
  · rw [Worker.ask, hsend, hreply]
    simp only [hsend']
  · rw [hwaiting]
    exact hsuspended.cons t
  · exact List.forall_mem_cons.2 ⟨⟨hthrives.outcomes_eq, .inr ⟨t, rfl⟩⟩, hothers⟩

/-- The worker's operation goes on and succeeds. -/
theorem Healthy.finish {left : Nat} {outcomes : Outcomes} {t : Ticket}
    (h : Healthy host engine limit e world ({ left, outcomes, activity := .operating t } :: others))
    (hserves : host.Serves engine) (hvirtual : host.Virtual engine) :
    ∃ after,
      Worker.finish host world { left, outcomes, activity := .operating t } t true =
        (after, { left, outcomes := outcomes.complete true }) ∧
      host.now after = host.now world ∧
      Healthy host engine limit e after ({ left, outcomes := outcomes.complete true } :: others) := by
  obtain ⟨hthrives, hothers⟩ := List.forall_mem_cons.1 h.thrives
  obtain ⟨foreign, hsuspended⟩ := h.suspended
  have hmem : t ∈ (engine world).suspended := hsuspended.mem_iff.2 (by simp [Worker.ticket?])
  obtain ⟨r, hresume, hframes, hkept⟩ :=
    exists_staysClosed_resume (host.now world) h.closedSince.state hmem
  obtain ⟨resumed, hsend, hengine, hnow, hsince⟩ :=
    h.closedSince.send hserves hvirtual hresume nofun nofun
  rw [← hengine] at hframes hkept
  obtain ⟨r', hfinish, hreply, hkept'⟩ :=
    exists_staysClosed_finish hsince.state hsince.fits_now hframes
  obtain ⟨after, hsend', hengine', hnow', hsince'⟩ :=
    hsince.send hserves hvirtual hfinish nofun nofun
  rw [← hengine', hkept] at hkept'
  refine ⟨after, ?_, hnow'.trans hnow, hsince', ⟨foreign, ?_⟩, ?_⟩
  · rw [hreply] at hsend'
    simp only [Worker.finish, hsend, hsend']
  · have hrunning : Worker.ticket? { left, outcomes, activity := .operating t } = some t := rfl
    have hended : Worker.ticket? { left, outcomes := outcomes.complete true } = none := rfl
    have herase := hsuspended.erase t
    rw [List.filterMap_cons_some hrunning, List.cons_append, List.erase_cons_head] at herase
    rw [hkept', List.filterMap_cons_none hended]
    exact herase
  · refine List.forall_mem_cons.2 ⟨⟨?_, .inl rfl⟩, hothers⟩
    have houtcomes : outcomes = { succeeded := outcomes.succeeded } := hthrives.outcomes_eq
    rw [houtcomes]
    rfl

/-- A stride whose operation succeeds, if one runs, keeps a crew healthy and
takes no time. -/
theorem Healthy.stride (h : Healthy host engine limit e world (worker :: others))
    (hserves : host.Serves engine) (hvirtual : host.Virtual engine) :
    host.now (worker.stride host true world).1 = host.now world ∧
      Healthy host engine limit e (worker.stride host true world).1
        ((worker.stride host true world).2 :: others) := by
  have hthrives := h.thrives worker List.mem_cons_self
  obtain ⟨left, outcomes, activity⟩ := worker
  rcases hthrives.awake with hready | ⟨t, hoperating⟩
  · cases hready
    cases left with
    | zero => exact ⟨rfl, h⟩
    | succ left =>
      obtain ⟨after, t, hask, hnow, hafter⟩ := h.ask hserves hvirtual
      simp only [Worker.stride, hask]
      exact ⟨hnow, hafter⟩
  · cases hoperating
    obtain ⟨after, hfinish, hnow, hafter⟩ := h.finish hserves hvirtual
    simp only [Worker.stride, hfinish]
    exact ⟨hnow, hafter⟩

/-! ## Any interleaving -/

/-- The operation that ends in the turn, if one does, succeeds; before the turn
nobody else uses the breaker, and the clock does not pass the limit. -/
structure Turn.Succeeds (host : Host σ) (engine : σ → Engine) (limit : Instant) (turn : Turn σ) :
    Prop where
  success : turn.success = true
  engine_eq : ∀ world, engine (turn.meanwhile world) = engine world
  now_le : ∀ world, host.now world ≤ limit → host.now (turn.meanwhile world) ≤ limit

theorem ClosedSince.of_eq (h : ClosedSince host engine limit e world) {after : σ}
    (hengine : engine after = engine world) (hnow : host.now after ≤ limit) :
    ClosedSince host engine limit e after := by
  obtain ⟨hruns, hbefore, hfits, -⟩ := h
  rw [← hengine] at hruns hbefore hfits
  exact ⟨hruns, hbefore, hfits, hnow⟩

theorem Healthy.of_eq {workers : List Worker} (h : Healthy host engine limit e world workers)
    {after : σ} (hengine : engine after = engine world) (hnow : host.now after ≤ limit) :
    Healthy host engine limit e after workers :=
  ⟨h.closedSince.of_eq hengine hnow, hengine ▸ h.suspended, h.thrives⟩

theorem healthy_start (w : Workload) (hbefore : (engine world).ClosedNoLeftovers)
    (hfits : (engine world).policy.Fits limit) (hnow : host.now world ≤ limit) :
    Healthy host engine limit (engine world) world (newWorkers w) := by
  refine ⟨⟨runsClosedTo_self _, hbefore, hfits, hnow⟩, ⟨(engine world).suspended, ?_⟩, ?_⟩
  · have hnone : (newWorkers w).filterMap Worker.ticket? = [] := by
      simp [newWorkers, List.filterMap_map, Worker.ticket?]
    rw [hnone]
    exact .refl _
  · intro worker hworker
    obtain ⟨left, -, rfl⟩ := List.mem_map.1 hworker
    exact ⟨rfl, .inl rfl⟩

theorem Healthy.take {crew : Crew σ} {turn : Turn σ}
    (h : Healthy host engine limit e crew.world crew.workers) (hserves : host.Serves engine)
    (hvirtual : host.Virtual engine) (hturn : turn.Succeeds host engine limit) :
    Healthy host engine limit e (crew.take host turn).world (crew.take host turn).workers := by
  have hmeanwhile := h.of_eq (hturn.engine_eq crew.world) (hturn.now_le _ h.closedSince.now_le)
  rcases Crew.take_cases host crew turn with heq | ⟨worker, others, hbefore, hworld, hafter, -⟩
  · rw [heq]
    exact hmeanwhile
  · have hstride := ((hmeanwhile.perm hbefore).stride hserves hvirtual).2
    rw [hturn.success] at hworld hafter
    rw [hworld]
    exact hstride.perm hafter.symm

theorem healthy_run {turns : List (Turn σ)} (crew : Crew σ)
    (h : Healthy host engine limit e crew.world crew.workers) (hserves : host.Serves engine)
    (hvirtual : host.Virtual engine) (hturns : ∀ turn ∈ turns, turn.Succeeds host engine limit) :
    Healthy host engine limit e (crew.run host turns).world (crew.run host turns).workers := by
  induction turns generalizing crew with
  | nil => exact h
  | cons turn turns ih =>
    obtain ⟨hturn, hrest⟩ := List.forall_mem_cons.1 hturns
    exact ih _ (h.take hserves hvirtual hturn) hrest

/-- All calls of such workers have succeeded. -/
theorem tally_of_thrives {workers : List Worker} (h : ∀ worker ∈ workers, worker.Thrives) :
    tally workers = { succeeded := (tally workers).total } := by
  induction workers with
  | nil => rfl
  | cons worker workers ih =>
    obtain ⟨hworker, hworkers⟩ := List.forall_mem_cons.1 h
    have hsum : tally (worker :: workers) = worker.outcomes.add (tally workers) := rfl
    rw [hsum, ih hworkers, hworker.outcomes_eq]
    simp [Outcomes.add, Outcomes.total]

theorem Worker.Thrives.unharmed (h : worker.Thrives) : worker.hasPanicked = false := by
  rcases h.awake with hready | ⟨t, hoperating⟩
  · rw [hasPanicked, hready]
  · rw [hasPanicked, hoperating]

/-! ## The clock of a simulation -/

/-- The clock has not passed the limit, and will not pass it when all sleeps that
are still to come end one after another. -/
structure OnTime (host : Host σ) (w : Workload) (limit : Instant) (run : Run σ)
    (active : List Worker) : Prop where
  wake_le : ∀ s ∈ run.sleepers, s.wake ≤ host.now run.world + w.latency
  now_le : host.now run.world + ((active.map Worker.duty).sum + run.ahead) * w.latency ≤ limit

/-- One sleep less is ahead, and the clock has moved on by one latency at most. -/
theorem le_of_sleep {now now' ahead ahead' latency limit : Nat} (hnow : now' ≤ now + latency)
    (hahead : ahead' + 1 ≤ ahead) (h : now + ahead * latency ≤ limit) :
    now' + ahead' * latency ≤ limit := by
  have hmul := Nat.mul_le_mul_right latency hahead
  rw [Nat.succ_mul] at hmul
  omega

/-- Fewer sleeps ahead take less time. -/
theorem le_of_ahead_le {now ahead ahead' latency limit : Nat} (hahead : ahead' ≤ ahead)
    (h : now + ahead * latency ≤ limit) : now + ahead' * latency ≤ limit :=
  Nat.le_trans (Nat.add_le_add_left (Nat.mul_le_mul_right latency hahead) now) h

section

variable {run : Run σ} {rest : List Worker} {s : Sleeper} {sleepers : List Sleeper}

theorem OnTime.stride (h : OnTime host w limit run (worker :: rest))
    (hnow : host.now (run.stride host w seed worker).1.world = host.now run.world) :
    OnTime host w limit (run.stride host w seed worker).1
      ((run.stride host w seed worker).2 :: rest) where
  wake_le := hnow ▸ h.wake_le
  now_le := by
    have hduty := (Run.stride_goes host w seed run worker).duty_le
    rw [hnow]
    refine le_of_ahead_le ?_ h.now_le
    exact Nat.add_le_add_right (Nat.add_le_add_right hduty _) _

theorem OnTime.sleep (h : OnTime host w limit run (worker :: rest)) :
    OnTime host w limit
      { run with
        sleepers := run.sleepers ++ [{ wake := host.now run.world + w.latency, worker }] } rest where
  wake_le := by
    rw [List.forall_mem_append, List.forall_mem_singleton]
    exact ⟨h.wake_le, Nat.le_refl _⟩
  now_le := by
    refine le_of_ahead_le ?_ h.now_le
    simp only [Run.ahead, List.map_append, List.map_cons, List.map_nil, List.sum_append,
      List.sum_cons, List.sum_nil]
    omega

theorem OnTime.retire (h : OnTime host w limit run (worker :: rest)) :
    OnTime host w limit { run with retired := worker :: run.retired } rest where
  wake_le := h.wake_le
  now_le := by
    refine le_of_ahead_le ?_ h.now_le
    rw [List.map_cons, List.sum_cons]
    exact Nat.add_le_add_right (Nat.le_add_left _ _) _

/-- The clock when the first sleeper wakes, and the sleeps that are then still to
come. -/
theorem OnTime.woken (h : OnTime host w limit run []) (hvirtual : host.Virtual engine)
    (hsleepers : run.sleepers = s :: sleepers) (hsleeps : s.worker.sleeps = true) :
    host.now run.world ≤ host.now (host.sleepUntil s.wake run.world) ∧
      host.now (host.sleepUntil s.wake run.world) +
        (s.worker.left + (sleepers.map fun s => s.worker.duty).sum) * w.latency ≤ limit := by
  have hmoved : max (host.now run.world) s.wake ≤ host.now run.world + w.latency :=
    Nat.max_le.2 ⟨Nat.le_add_right _ _, h.wake_le s (by simp [hsleepers])⟩
  have hduty : s.worker.duty = s.worker.left + 1 := by simp [Worker.duty, hsleeps]
  have hahead : run.ahead = s.worker.left + 1 + (sleepers.map fun s => s.worker.duty).sum := by
    simp [Run.ahead, hsleepers, hduty]
  have hlimit := h.now_le
  rw [List.map_nil, List.sum_nil, Nat.zero_add, hahead] at hlimit
  rw [hvirtual.now_sleep]
  exact ⟨Nat.le_max_left _ _, le_of_sleep hmoved (by omega) hlimit⟩

theorem OnTime.wake (h : OnTime host w limit run []) (hvirtual : host.Virtual engine)
    (hsleepers : run.sleepers = s :: sleepers) (hsleeps : s.worker.sleeps = true) :
    let woken := { run with world := host.sleepUntil s.wake run.world, sleepers }
    host.now (woken.stride host w seed s.worker).1.world = host.now woken.world →
      OnTime host w limit (woken.stride host w seed s.worker).1
        [(woken.stride host w seed s.worker).2] := by
  intro woken hsame
  obtain ⟨hlater, hlimit⟩ := h.woken hvirtual hsleepers hsleeps
  obtain ⟨hawake, hleft⟩ := (Run.stride_goes host w seed woken s.worker).of_sleeps hsleeps
  refine ⟨fun s' hs' => ?_, ?_⟩
  · have hmem : s' ∈ run.sleepers := hsleepers ▸ List.mem_cons_of_mem _ hs'
    rw [hsame]
    exact Nat.le_trans (h.wake_le s' hmem) (Nat.add_le_add_right hlater _)
  · have hduty : (woken.stride host w seed s.worker).2.duty = s.worker.left := by
      simp [Worker.duty, hawake, hleft]
    have hrest : (woken.stride host w seed s.worker).1.ahead =
        (sleepers.map fun s => s.worker.duty).sum := rfl
    rw [hsame, List.map_singleton, List.sum_singleton, hduty, hrest]
    exact hlimit

theorem Healthy.run_stride (run : Run σ)
    (h : Healthy host engine limit e run.world (worker :: others)) (hserves : host.Serves engine)
    (hvirtual : host.Virtual engine) (hnever : ∀ n, w.fails seed n = false) :
    host.now (run.stride host w seed worker).1.world = host.now run.world ∧
      Healthy host engine limit e (run.stride host w seed worker).1.world
        ((run.stride host w seed worker).2 :: others) := by
  have hsame := h.stride hserves hvirtual
  rw [← Bool.not_false, ← hnever run.operations] at hsame
  exact hsame

end

/-- A healthy simulation stays healthy and on time. -/
theorem keeps_healthy (hserves : host.Serves engine) (hvirtual : host.Virtual engine)
    (hnever : ∀ n, w.fails seed n = false) :
    Run.Keeps host w seed fun run active =>
      Healthy host engine limit e run.world (run.everyone active) ∧
        OnTime host w limit run active where
  stride := by
    rintro run worker rest ⟨hhealthy, htime⟩ - -
    obtain ⟨hnow, hnext⟩ := hhealthy.run_stride run hserves hvirtual hnever
    exact ⟨hnext, htime.stride hnow⟩
  sleep := by
    rintro run worker rest ⟨hhealthy, htime⟩ - -
    exact ⟨hhealthy.perm (run.everyone_sleep { wake := _, worker } rest), htime.sleep⟩
  retire := by
    rintro run worker rest ⟨hhealthy, htime⟩ -
    exact ⟨hhealthy.perm (run.everyone_retire worker rest), htime.retire⟩
  wake := by
    rintro run s sleepers ⟨hhealthy, htime⟩ hsleepers hsleeps woken
    obtain ⟨-, hlimit⟩ := htime.woken hvirtual hsleepers hsleeps
    have hwoken := hhealthy.of_eq (hvirtual.engine_sleep s.wake run.world)
      (Nat.le_trans (Nat.le_add_right _ _) hlimit)
    rw [Run.everyone_wake hsleepers] at hwoken
    obtain ⟨hsame, hnext⟩ := hwoken.run_stride woken hserves hvirtual hnever
    exact ⟨hnext, htime.wake hvirtual hsleepers hsleeps hsame⟩

/-- A dependency that does not fail is never cut off.  The breaker is closed and
has nothing left to deliver, its window may hold what it likes.  However the
workers interleave, and at every time, nothing has happened to the breaker and
nobody has panicked; when all are done, all calls have succeeded.  The
simulation itself ends so too, on a clock that can hold all deadlines up to as
many latencies after the start as there are calls. -/
theorem never_cut_off (host : Host σ) (engine : σ → Engine) (w : Workload) (seed : Nat)
    (world : σ) (limit : Instant) (hserves : host.Serves engine) (hvirtual : host.Virtual engine)
    (hcrew : 0 < w.concurrency) (hclosed : (engine world).circuit.phase = .closed)
    (hleftovers : (engine world).NoLeftovers) (hfits : (engine world).policy.Fits limit)
    (hlimit : host.now world + w.calls * w.latency ≤ limit) :
    (∀ turns, (∀ turn ∈ turns, turn.Succeeds host engine limit) →
      let crew := (Crew.start w world).run host turns
      (engine world).RunsClosedTo (engine crew.world) ∧
        (engine crew.world).circuit.phase = .closed ∧ crew.Unharmed ∧
        (crew.IsOver → tally crew.workers = { succeeded := w.calls })) ∧
      ((∀ n, w.fails seed n = false) →
        let final := run host w seed world
        (engine world).RunsClosedTo (engine final.world) ∧
          (engine final.world).circuit.phase = .closed ∧ final.panicked = none ∧
          final.outcomes = { succeeded := w.calls }) := by
  have hbefore : (engine world).ClosedNoLeftovers := ⟨hclosed, hleftovers⟩
  have hnow : host.now world ≤ limit := Nat.le_trans (Nat.le_add_right _ _) hlimit
  have hstart : Healthy host engine limit (engine world) world (newWorkers w) :=
    healthy_start w hbefore hfits hnow
  refine ⟨fun turns hturns => ?_, fun hnever => ?_⟩
  · have hhealthy := healthy_run (Crew.start w world) hstart hserves hvirtual hturns
    have hunharmed : ((Crew.start w world).run host turns).Unharmed := fun worker hworker =>
      (hhealthy.thrives worker hworker).unharmed
    obtain ⟨hruns, hstate, -, -⟩ := hhealthy.closedSince
    refine ⟨hruns, hstate.closed, hunharmed, fun hover => ?_⟩
    have hbalanced := (Crew.balanced_start host engine hcrew world).run hserves turns
    rw [tally_of_thrives hhealthy.thrives, hbalanced.total_eq hover hunharmed]
  · have htime : OnTime host w limit { world } (newWorkers w) := by
      refine ⟨nofun, ?_⟩
      have hduties : (newWorkers w).map Worker.duty = (List.range w.concurrency).map w.share := by
        simp [newWorkers, Worker.duty, Worker.sleeps]
      have hnone : ({ world } : Run σ).ahead = 0 := rfl
      rw [hduties, (Workload.sharesFairly hcrew).sum_eq, hnone]
      exact hlimit
    have heveryone : ({ world } : Run σ).everyone (newWorkers w) = newWorkers w := by
      simp [Run.everyone]
    obtain ⟨⟨hhealthy, -⟩, hsleepers⟩ :=
      run_induction hcrew (keeps_healthy hserves hvirtual hnever) ⟨heveryone ▸ hstart, htime⟩
    rw [Run.everyone, hsleepers, List.map_nil, List.nil_append, List.nil_append] at hhealthy
    have hunharmed := (unharmed_iff (run host w seed world) (.refl _)).1 fun worker hworker =>
      (hhealthy.thrives worker hworker).unharmed
    obtain ⟨hruns, hstate, -, -⟩ := hhealthy.closedSince
    refine ⟨hruns, hstate.closed, hunharmed, ?_⟩
    have htotal := total_outcomes hserves hcrew hunharmed
    have htally : (run host w seed world).outcomes = tally (run host w seed world).retired := rfl
    rw [htally] at htotal ⊢
    rw [tally_of_thrives hhealthy.thrives, htotal]

/-- The three failures in the window are enough to open the circuit with the
next call, were that one a failure too.  Two workers then make two calls that
overlap. -/
theorem never_cut_off_nearly_tripped :
    ∃ e ∈ Engine.new? "db" { minRequests := 4 } .client 0,
      ∃ failing ∈ e.run [(0, .call), (0, .finish false), (0, .call), (0, .finish false), (0, .call),
          (0, .finish false)],
        let w : Workload := { calls := 2, concurrency := 2, failureRate := .zero, latency := 5 }
        let turns : List (Turn (Instant × Engine)) :=
          [{ worker := 0, success := true }, { worker := 1, success := true },
            { worker := 1, success := true }, { worker := 0, success := true }]
        let crew := (Crew.start w (0, failing.engine)).run CommandLine.quietHost turns
        let final := run CommandLine.quietHost w 0 (0, failing.engine)
        Circuit.shouldTrip failing.engine.policy failing.engine.circuit.window.arrive = true ∧
          (failing.engine.RunsClosedTo crew.world.2 ∧ crew.IsOver ∧
            tally crew.workers = { succeeded := 2 }) ∧
          failing.engine.RunsClosedTo final.world.2 ∧ final.outcomes = { succeeded := 2 } := by
  obtain ⟨e, he, failing, hfailing, htrips, hclosed, hidle, hfits, hover⟩ :
      ∃ e ∈ Engine.new? "db" { minRequests := 4 } .client 0,
        ∃ failing ∈ e.run [(0, .call), (0, .finish false), (0, .call), (0, .finish false),
            (0, .call), (0, .finish false)],
          Circuit.shouldTrip failing.engine.policy failing.engine.circuit.window.arrive = true ∧
            failing.engine.circuit.phase = .closed ∧ failing.engine.mailbox.pending = [] ∧
            failing.engine.policy.Fits 10 ∧
            ((Crew.start { calls := 2, concurrency := 2, failureRate := .zero, latency := 5 }
              (0, failing.engine)).run CommandLine.quietHost
              [{ worker := 0, success := true }, { worker := 1, success := true },
                { worker := 1, success := true }, { worker := 0, success := true }]).IsOver := by
    decide +kernel
  obtain ⟨hturns, hrun⟩ := never_cut_off CommandLine.quietHost Prod.snd
    { calls := 2, concurrency := 2, failureRate := .zero, latency := 5 } 0 (0, failing.engine) 10
    Host.quietHost_serves Host.quietHost_virtual (by decide) hclosed (fun _ => hidle) hfits
    (Nat.le_refl 10)
  obtain ⟨hruns, -, -, hall⟩ := hturns
    [{ worker := 0, success := true }, { worker := 1, success := true },
      { worker := 1, success := true }, { worker := 0, success := true }]
    (by simp only [List.forall_mem_cons]; exact ⟨⟨rfl, fun _ => rfl, fun _ h => h⟩,
      ⟨rfl, fun _ => rfl, fun _ h => h⟩, ⟨rfl, fun _ => rfl, fun _ h => h⟩,
      ⟨rfl, fun _ => rfl, fun _ h => h⟩, by simp⟩)
  obtain ⟨hfinal, -, -, houtcomes⟩ := hrun (Workload.fails_eq_false rfl 0)
  exact ⟨e, he, failing, hfailing, htrips, ⟨hruns, hover, hall hover⟩, hfinal, houtcomes⟩

/-- A transition may be left over on a closed breaker that nobody uses.  The
listener, told of an opening, has reset the breaker and panicked; the simulation
hands it the closing, upon which it begins a call of its own and gives it up,
which opens the circuit.  Of the two calls of the simulation one is refused,
though no operation fails. -/
theorem cut_off_by_leftover :
    Policy.Sound "db" { minRequests := 1 } ∧ Policy.Fits { minRequests := 1 } 10 ∧
    (∀ n, Workload.fails { calls := 2, concurrency := 1, failureRate := .zero, latency := 5 } 0 n =
      false) ∧
    ∃ e ∈ Engine.new? "db" { minRequests := 1 } .client 0,
      let fresh : Scenario.World :=
        { panel := { engines := [e] }
          reactions :=
            [{ target := .opened, left := 1, script := [.reset, .panic "listener"] },
              { target := .closed, left := 1, script := [.start "a", .drop "a"] }] }
      let world := (Scenario.runOutermost "db" (.call .err "down") fresh).1
      let final := run (Scenario.World.host Scenario.hear "db")
        { calls := 2, concurrency := 1, failureRate := .zero, latency := 5 } 0 world
      (∃ before ∈ world.engine? "db", before.circuit.phase = .closed ∧ before.frames = [] ∧
          before.suspended = []) ∧
        final.panicked = none ∧ final.outcomes = { succeeded := 1, refusedOpen := 1 } ∧
        final.world.events.map Scenario.Event.transition =
          world.events.map Scenario.Event.transition ++
            [{ source := .opened, target := .closed }, { source := .closed, target := .opened }] ∧
        ∃ after ∈ final.world.engine? "db", after.circuit.phase = .opened := by
  refine ⟨⟨by decide +kernel, by decide, by decide⟩, by decide,
    Workload.fails_eq_false rfl 0, ?_⟩
  decide +kernel

end Simulation

end Breaker
