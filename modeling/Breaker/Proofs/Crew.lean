import Breaker.Proofs.Host
import Breaker.Proofs.Simulation
import Mathlib.Algebra.Order.BigOperators.Group.List
import Mathlib.Algebra.Order.Group.Nat
import Mathlib.Data.List.Perm.Basic

/-!
# Crews that share a breaker

The workers of a simulation share one breaker, and their strides may come in
any order.  A `Crew` is the workers with the world around them, and a `Turn` is
a stride of one of them, before which anything may have happened to the world.
So a list of turns is one way in which the workers interleave with each other
and with whoever else uses the breaker.  Methods that overlap are covered too,
since the stride of a worker depends on nothing but the world that its method
finds and on its own record: the strides are taken in the order in which the
methods come back.

There are three groups.

* One stride.  `Worker.charge` is what a worker answers for, and no stride
  changes it, unless a panic ends the worker.
* Any interleaving.  `Crew.Balanced` is the invariant, `Crew.Conserves` is what
  follows from it for the tally.
* The simulation itself.  `Crew.Follows` says that the run so far is one of the
  interleavings, and `conserves_calls` puts it all together.
-/

namespace Breaker.Simulation

open Engine

variable {σ : Type} {host : Host σ} {engine : σ → Engine} {w : Workload} {seed : Nat}

/-! ## One stride -/

/-- The sum of what became of the calls of workers. -/
def tally (workers : List Worker) : Outcomes :=
  workers.foldr (fun worker sum => worker.outcomes.add sum) {}

/-- Has the operation of a call been invoked? -/
def isInvocation : Entry → Bool
  | .began _ => true
  | _ => false

/-- How many operations the breaker invoked in the given responses. -/
def invocations (answers : List Response) : Nat :=
  (answers.flatMap Response.journal).countP isInvocation

/-- How many calls the breaker refused in the given responses, for that reason. -/
def rejections (reason : Refusal) (answers : List Response) : Nat :=
  (answers.flatMap Response.journal).count (.refused reason)

namespace Worker

/-- Is the next stride of the worker to ask for admission? -/
def asks (worker : Worker) : Bool :=
  match worker.activity with
  | .ready => worker.left != 0
  | _ => false

/-- What the worker hears about admission in its next stride. -/
def hears (host : Host σ) (world : σ) (worker : Worker) : List Entry :=
  if worker.asks then (host.send .call world).2.decisions else []

/-- The operations of the worker that were invoked: those that have ended, and
the running one. -/
def invoked (worker : Worker) : Nat :=
  worker.outcomes.succeeded + worker.outcomes.failed +
    match worker.activity with
    | .operating _ => 1
    | _ => 0

/-- The calls of the worker that were refused for that reason. -/
def rejected (reason : Refusal) (worker : Worker) : Nat :=
  match reason with
  | .opened => worker.outcomes.refusedOpen
  | .tooManyRequests => worker.outcomes.refusedHalfOpen

variable {worker next : Worker} {success : Bool} {world : σ}

theorem total_le_charge (worker : Worker) : worker.outcomes.total ≤ worker.charge := by
  unfold charge
  omega

/-- A worker that is done has made all its calls, unless a panic has ended it. -/
theorem charge_of_isDone (hdone : worker.isDone = true) (hunharmed : worker.hasPanicked = false) :
    worker.charge = worker.outcomes.total ∧
      worker.invoked = worker.outcomes.succeeded + worker.outcomes.failed := by
  obtain ⟨left, outcomes, activity⟩ := worker
  cases activity with
  | ready =>
    have hleft : left = 0 := by simpa [isDone] using hdone
    simp [charge, invoked, hleft]
  | operating t => cases hdone
  | resting => cases hdone
  | panicked text => cases hunharmed

/-- A panic ends a worker for good. -/
theorem Goes.unharmed (h : Goes host success world worker next)
    (hunharmed : next.hasPanicked = false) : worker.hasPanicked = false := by
  cases h with
  | panics hdone text => cases hunharmed
  | idles hdone => exact hunharmed
  | _ => rfl

/-- A stride leaves to a worker what it answers for. -/
theorem Goes.charge_eq (h : Goes host success world worker next)
    (hunharmed : next.hasPanicked = false) : next.charge = worker.charge := by
  cases h with
  | idles hdone => rfl
  | begins hreply => simp only [charge]; omega
  | refusedOpen hreply => simp only [charge, Outcomes.total_refuse]; omega
  | refusedHalfOpen hreply => simp only [charge, Outcomes.total_refuse]; omega
  | ends => simp only [charge, Outcomes.total_complete]; omega
  | wakes => rfl
  | panics hdone text => cases hunharmed

theorem Goes.charge_le (h : Goes host success world worker next) :
    next.charge ≤ worker.charge := by
  cases hharm : next.hasPanicked with
  | false => exact (h.charge_eq hharm).le
  | true =>
    cases h with
    | idles hdone => exact Nat.le_refl _
    | panics hdone text =>
      simp only [charge]
      omega
    | _ => cases hharm

/-- The worker counts what it hears. -/
theorem Goes.invoked_eq (h : Goes host success world worker next)
    (hunharmed : next.hasPanicked = false) :
    next.invoked = worker.invoked + (worker.hears host world).countP isInvocation := by
  cases h with
  | idles hdone =>
    obtain ⟨left, outcomes, activity⟩ := worker
    cases activity with
    | ready =>
      have hleft : left = 0 := by simpa [isDone] using hdone
      simp [hears, asks, hleft]
    | _ => simp [hears, asks]
  | begins hreply => simp [invoked, hears, asks, hreply, Reply.decisions, isInvocation]
  | refusedOpen hreply =>
    simp [invoked, hears, asks, hreply, Reply.decisions, isInvocation, Outcomes.refuse]
  | refusedHalfOpen hreply =>
    simp [invoked, hears, asks, hreply, Reply.decisions, isInvocation, Outcomes.refuse]
  | ends => cases success <;> simp [invoked, hears, asks, Outcomes.complete] <;> omega
  | wakes => simp [invoked, hears, asks]
  | panics hdone text => cases hunharmed

theorem Goes.rejected_eq (h : Goes host success world worker next)
    (hunharmed : next.hasPanicked = false) (reason : Refusal) :
    next.rejected reason =
      worker.rejected reason + (worker.hears host world).count (.refused reason) := by
  cases h with
  | idles hdone =>
    obtain ⟨left, outcomes, activity⟩ := worker
    cases activity with
    | ready =>
      have hleft : left = 0 := by simpa [isDone] using hdone
      simp [hears, asks, hleft]
    | _ => simp [hears, asks]
  | begins hreply => simp [rejected, hears, asks, hreply, Reply.decisions]
  | refusedOpen hreply =>
    cases reason <;> simp [rejected, hears, asks, hreply, Reply.decisions, Outcomes.refuse]
  | refusedHalfOpen hreply =>
    cases reason <;> simp [rejected, hears, asks, hreply, Reply.decisions, Outcomes.refuse]
  | ends => cases reason <;> cases success <;> simp [rejected, hears, asks, Outcomes.complete]
  | wakes => simp [rejected, hears, asks]
  | panics hdone text => cases hunharmed

end Worker

/-! ## Sums over the workers -/

/-- A quantity of the tally is the sum of the quantities of the workers. -/
theorem tally_eq_sum (f : Outcomes → Nat) (hzero : f {} = 0)
    (hadd : ∀ a b, f (a.add b) = f a + f b) (workers : List Worker) :
    f (tally workers) = (workers.map fun worker => f worker.outcomes).sum := by
  induction workers with
  | nil => exact hzero
  | cons worker workers ih =>
    rw [List.map_cons, List.sum_cons, ← ih]
    exact hadd worker.outcomes (tally workers)

theorem total_tally (workers : List Worker) :
    (tally workers).total = (workers.map fun worker => worker.outcomes.total).sum :=
  tally_eq_sum Outcomes.total rfl Outcomes.total_add workers

/-- The order of the workers does not show in the tally. -/
theorem tally_perm {workers workers' : List Worker} (h : workers.Perm workers') :
    tally workers = tally workers' := by
  refine h.foldr_eq' (fun worker _ worker' _ sum => ?_) _
  simp only [Outcomes.add, Nat.add_left_comm]

/-! ## Any interleaving -/

/-- Workers with the world around them.  `asked` are the worlds in which their
calls asked for admission, the newest first. -/
structure Crew (σ : Type) where
  world : σ
  workers : List Worker
  asked : List σ := []

/-- A stride of the worker with that index, `success` if its operation ends and
ends well, and what happens to the world before. -/
structure Turn (σ : Type) where
  worker : Nat
  success : Bool
  meanwhile : σ → σ := id

namespace Crew

/-- The crew of a workload before its first stride. -/
def start (w : Workload) (world : σ) : Crew σ := { world, workers := newWorkers w }

/-- The crew after a turn. -/
def take (host : Host σ) (crew : Crew σ) (turn : Turn σ) : Crew σ :=
  let world := turn.meanwhile crew.world
  match crew.workers[turn.worker]? with
  | none => { crew with world }
  | some worker =>
    let (after, next) := worker.stride host turn.success world
    { world := after
      workers := crew.workers.set turn.worker next
      asked := if worker.asks then world :: crew.asked else crew.asked }

/-- The crew after turns, in their order. -/
def run (host : Host σ) (crew : Crew σ) (turns : List (Turn σ)) : Crew σ :=
  turns.foldl (take host) crew

/-- All workers have nothing more to do. -/
def IsOver (crew : Crew σ) : Prop := ∀ worker ∈ crew.workers, worker.isDone = true

/-- No worker has panicked. -/
def Unharmed (crew : Crew σ) : Prop := ∀ worker ∈ crew.workers, worker.hasPanicked = false

instance (crew : Crew σ) : Decidable crew.IsOver :=
  inferInstanceAs (Decidable (∀ worker ∈ crew.workers, worker.isDone = true))

instance (crew : Crew σ) : Decidable crew.Unharmed :=
  inferInstanceAs (Decidable (∀ worker ∈ crew.workers, worker.hasPanicked = false))

/-- A turn changes one worker, by a stride. -/
theorem take_cases (host : Host σ) (crew : Crew σ) (turn : Turn σ) :
    crew.take host turn = { crew with world := turn.meanwhile crew.world } ∨
      ∃ worker others, crew.workers.Perm (worker :: others) ∧
        (crew.take host turn).world =
          (worker.stride host turn.success (turn.meanwhile crew.world)).1 ∧
        (crew.take host turn).workers.Perm
          ((worker.stride host turn.success (turn.meanwhile crew.world)).2 :: others) ∧
        (crew.take host turn).asked =
          if worker.asks then turn.meanwhile crew.world :: crew.asked else crew.asked := by
  unfold take
  cases hworker : crew.workers[turn.worker]? with
  | none => exact .inl rfl
  | some worker =>
    obtain ⟨hindex, rfl⟩ := List.getElem?_eq_some_iff.1 hworker
    exact .inr ⟨_, crew.workers.eraseIdx turn.worker, (List.getElem_cons_eraseIdx_perm hindex).symm,
      rfl, List.set_perm_cons_eraseIdx hindex _, rfl⟩

/-- The balance of a crew: what the workers answer for, and what they have
counted of the breaker's answers. -/
structure Balanced (host : Host σ) (engine : σ → Engine) (w : Workload) (crew : Crew σ) :
    Prop where
  charge_le : (crew.workers.map Worker.charge).sum ≤ w.calls
  charge_eq : crew.Unharmed → (crew.workers.map Worker.charge).sum = w.calls
  answered : crew.Unharmed → ∃ answers,
    List.Forall₂ (fun world answer => host.Answers engine world .call answer) crew.asked answers ∧
      invocations answers = (crew.workers.map Worker.invoked).sum ∧
      ∀ reason, rejections reason answers = (crew.workers.map (Worker.rejected reason)).sum

variable {crew : Crew σ}

theorem sum_newWorkers_eq_zero (f : Worker → Nat) (hzero : ∀ left, f { left } = 0) (w : Workload) :
    ((newWorkers w).map f).sum = 0 := by
  simp only [newWorkers, List.map_map, List.sum_eq_zero_iff_forall_eq_nat]
  intro n hn
  obtain ⟨left, -, rfl⟩ := List.mem_map.1 hn
  exact hzero _

theorem balanced_start (host : Host σ) (engine : σ → Engine) (hcrew : 0 < w.concurrency)
    (world : σ) : (start w world).Balanced host engine w := by
  have hcharge : ((start w world).workers.map Worker.charge).sum = w.calls := by
    have hmap : (start w world).workers.map Worker.charge =
        (List.range w.concurrency).map w.share := by
      simp [start, newWorkers, Worker.charge, Outcomes.total]
    rw [hmap, (Workload.sharesFairly hcrew).sum_eq]
  refine ⟨hcharge.le, fun _ => hcharge, fun _ => ⟨[], .nil, ?_, fun reason => ?_⟩⟩
  · exact (sum_newWorkers_eq_zero Worker.invoked (fun _ => rfl) w).symm
  · exact (sum_newWorkers_eq_zero (Worker.rejected reason) (fun _ => by cases reason <;> rfl) w).symm

/-- What a worker hears is what the journal of the answer tells. -/
theorem count_answer {world : σ} {answer : Response} (h : host.Answers engine world .call answer)
    (answers : List Response) :
    invocations (answer :: answers) =
        (host.send .call world).2.decisions.countP isInvocation + invocations answers ∧
      ∀ reason, rejections reason (answer :: answers) =
        (host.send .call world).2.decisions.count (.refused reason) +
          rejections reason answers := by
  rw [← h.decisions_eq]
  constructor
  · rw [invocations, List.flatMap_cons, List.countP_append, List.countP_filter]
    congr 1
    refine List.countP_congr fun entry _ => ?_
    cases entry <;> simp [isInvocation, Entry.isDecision]
  · intro reason
    rw [rejections, List.flatMap_cons, List.count_append, List.count_filter rfl]
    rfl

/-- One turn keeps the balance. -/
theorem Balanced.take (h : crew.Balanced host engine w) (hserves : host.Serves engine)
    (turn : Turn σ) : (crew.take host turn).Balanced host engine w := by
  rcases take_cases host crew turn with heq | ⟨worker, others, hbefore, -, hafter, hasked⟩
  · rw [heq]
    exact ⟨h.charge_le, h.charge_eq, h.answered⟩
  · have hgoes := Worker.stride_goes host turn.success (turn.meanwhile crew.world) worker
    generalize worker.stride host turn.success (turn.meanwhile crew.world) = strode at hafter hgoes
    have hsum (f : Worker → Nat) : (crew.workers.map f).sum = f worker + (others.map f).sum := by
      rw [(hbefore.map f).sum_eq, List.map_cons, List.sum_cons]
    have hsum' (f : Worker → Nat) :
        ((crew.take host turn).workers.map f).sum = f strode.2 + (others.map f).sum := by
      rw [(hafter.map f).sum_eq, List.map_cons, List.sum_cons]
    -- A crew without harm was without harm before.
    have hharm (hunharmed : (crew.take host turn).Unharmed) :
        strode.2.hasPanicked = false ∧ crew.Unharmed := by
      have hnext := hunharmed _ (hafter.mem_iff.2 List.mem_cons_self)
      refine ⟨hnext, fun x hx => ?_⟩
      rcases List.mem_cons.1 (hbefore.mem_iff.1 hx) with rfl | hother
      · exact hgoes.unharmed hnext
      · exact hunharmed x (hafter.mem_iff.2 (List.mem_cons_of_mem _ hother))
    refine ⟨?_, fun hunharmed => ?_, fun hunharmed => ?_⟩
    · have hle := h.charge_le
      have hcharge := hgoes.charge_le
      rw [hsum] at hle
      rw [hsum']
      omega
    · obtain ⟨hnext, hcrew⟩ := hharm hunharmed
      rw [hsum', hgoes.charge_eq hnext, ← hsum]
      exact h.charge_eq hcrew
    · obtain ⟨hnext, hcrew⟩ := hharm hunharmed
      obtain ⟨answers, hanswers, hinvoked, hrejected⟩ := h.answered hcrew
      have hinvoked' := hgoes.invoked_eq hnext
      have hrejected' := hgoes.rejected_eq hnext
      rw [hsum] at hinvoked
      rw [hasked]
      cases hasks : worker.asks with
      | false =>
        simp only [Worker.hears, hasks, Bool.false_eq_true, if_false, List.countP_nil,
          List.count_nil, Nat.add_zero] at hinvoked' hrejected'
        refine ⟨answers, hanswers, ?_, fun reason => ?_⟩
        · rw [hsum', hinvoked', hinvoked]
        · rw [hsum', hrejected', ← hsum, hrejected]
      | true =>
        simp only [Worker.hears, hasks, if_true] at hinvoked' hrejected'
        obtain ⟨answer, hanswer⟩ := hserves (turn.meanwhile crew.world) .call rfl nofun nofun
        obtain ⟨hcount, hcount'⟩ := count_answer hanswer answers
        refine ⟨answer :: answers, .cons hanswer hanswers, ?_, fun reason => ?_⟩
        · rw [hcount, hsum']
          omega
        · have hbalance := hrejected reason
          rw [hsum] at hbalance
          rw [hcount' reason, hsum', hrejected' reason]
          omega

theorem Balanced.run (h : crew.Balanced host engine w) (hserves : host.Serves engine)
    (turns : List (Turn σ)) : (crew.run host turns).Balanced host engine w := by
  induction turns generalizing crew with
  | nil => exact h
  | cons turn turns ih => exact ih (h.take hserves turn)

/-- What a workload conserves: no sum of the tally overflows, and in the end the
tally adds up to the calls and agrees with the answers of the breaker. -/
structure Conserves (host : Host σ) (engine : σ → Engine) (w : Workload) (crew : Crew σ) :
    Prop where
  total_le : ∀ part, part.Sublist crew.workers → (tally part).total ≤ Window.cap
  total_eq : crew.IsOver → crew.Unharmed → (tally crew.workers).total = w.calls
  answered : crew.IsOver → crew.Unharmed → ∃ answers,
    List.Forall₂ (fun world answer => host.Answers engine world .call answer) crew.asked answers ∧
      invocations answers = (tally crew.workers).succeeded + (tally crew.workers).failed ∧
      rejections .opened answers = (tally crew.workers).refusedOpen ∧
      rejections .tooManyRequests answers = (tally crew.workers).refusedHalfOpen

/-- When all are done, what they answer for is what they have counted. -/
theorem Balanced.total_eq (h : crew.Balanced host engine w) (hover : crew.IsOver)
    (hunharmed : crew.Unharmed) : (tally crew.workers).total = w.calls := by
  rw [total_tally, ← h.charge_eq hunharmed]
  refine congrArg List.sum (List.map_congr_left fun worker hworker => ?_)
  exact (Worker.charge_of_isDone (hover worker hworker) (hunharmed worker hworker)).1.symm

theorem Balanced.conserves (h : crew.Balanced host engine w) (hcalls : w.calls ≤ Window.cap) :
    crew.Conserves host engine w := by
  refine ⟨fun part hpart => ?_, h.total_eq, fun hover hunharmed => ?_⟩
  · have hle : (part.map fun worker => worker.outcomes.total).sum ≤
        (crew.workers.map fun worker => worker.outcomes.total).sum :=
      (hpart.map _).sum_le_sum fun _ _ => Nat.zero_le _
    have hle' : (crew.workers.map fun worker => worker.outcomes.total).sum ≤
        (crew.workers.map Worker.charge).sum :=
      List.sum_le_sum fun worker _ => worker.total_le_charge
    have hcharge := h.charge_le
    rw [total_tally]
    omega
  · obtain ⟨answers, hanswers, hinvoked, hrejected⟩ := h.answered hunharmed
    refine ⟨answers, hanswers, ?_, ?_, ?_⟩
    · rw [hinvoked, tally_eq_sum Outcomes.succeeded rfl (fun _ _ => rfl),
        tally_eq_sum Outcomes.failed rfl (fun _ _ => rfl), ← List.sum_map_add]
      refine congrArg List.sum (List.map_congr_left fun worker hworker => ?_)
      exact (Worker.charge_of_isDone (hover worker hworker) (hunharmed worker hworker)).2
    · rw [hrejected, tally_eq_sum Outcomes.refusedOpen rfl (fun _ _ => rfl)]
      rfl
    · rw [hrejected, tally_eq_sum Outcomes.refusedHalfOpen rfl (fun _ _ => rfl)]
      rfl

end Crew

/-! ## The simulation itself -/

/-- Nothing happens before the turn, or time passes. -/
def Turn.Waits (host : Host σ) (turn : Turn σ) : Prop :=
  turn.meanwhile = id ∨ ∃ wake, turn.meanwhile = host.sleepUntil wake

/-- A simulation has got to where some interleaving of its workers leads. -/
structure Crew.Follows (host : Host σ) (start : Crew σ) (run : Run σ) (active : List Worker)
    (turns : List (Turn σ)) : Prop where
  waits : ∀ turn ∈ turns, turn.Waits host
  world_eq : (start.run host turns).world = run.world
  workers_perm : (start.run host turns).workers.Perm (run.everyone active)
  retired : ∀ worker ∈ run.retired, worker.isDone = true

/-- A stride of a worker is one more turn of the crew. -/
theorem Crew.exists_turn {start : Crew σ} {turns : List (Turn σ)} {worker : Worker}
    {others : List Worker} (h : (start.run host turns).workers.Perm (worker :: others))
    (success : Bool) (meanwhile : σ → σ) :
    ∃ turn : Turn σ, turn.success = success ∧ turn.meanwhile = meanwhile ∧
      (start.run host (turns ++ [turn])).world =
        (worker.stride host success (meanwhile (start.run host turns).world)).1 ∧
      (start.run host (turns ++ [turn])).workers.Perm
        ((worker.stride host success (meanwhile (start.run host turns).world)).2 :: others) := by
  obtain ⟨index, hindex, hworker⟩ := List.getElem_of_mem (h.mem_iff.2 List.mem_cons_self)
  have hothers : ((start.run host turns).workers.eraseIdx index).Perm others := by
    have hperm := (List.getElem_cons_eraseIdx_perm hindex).trans h
    rw [hworker] at hperm
    exact hperm.cons_inv
  have hconcat (turn : Turn σ) :
      start.run host (turns ++ [turn]) = (start.run host turns).take host turn := by
    simp [Crew.run]
  refine ⟨{ worker := index, success, meanwhile }, rfl, rfl, ?_, ?_⟩
  · simp [hconcat, Crew.take, List.getElem?_eq_getElem hindex, hworker]
  · simp only [hconcat, Crew.take, List.getElem?_eq_getElem hindex, hworker]
    exact (List.set_perm_cons_eraseIdx hindex _).trans (hothers.cons _)

/-- Every simulation is one of the interleavings. -/
theorem keeps_follows (host : Host σ) (w : Workload) (seed : Nat) (start : Crew σ) :
    Run.Keeps host w seed fun run active => ∃ turns, start.Follows host run active turns where
  stride run worker rest := by
    rintro ⟨turns, h⟩ - -
    obtain ⟨turn, -, hid, hworld, hworkers⟩ :=
      Crew.exists_turn h.workers_perm (!w.fails seed run.operations) id
    rw [id, h.world_eq] at hworld hworkers
    refine ⟨turns ++ [turn], ?_, hworld, hworkers, h.retired⟩
    exact List.forall_mem_append.2 ⟨h.waits, List.forall_mem_singleton.2 (.inl hid)⟩
  sleep run worker rest := by
    rintro ⟨turns, h⟩ - -
    have hperm := run.everyone_sleep { wake := host.now run.world + w.latency, worker } rest
    exact ⟨turns, h.waits, h.world_eq, h.workers_perm.trans hperm, h.retired⟩
  retire run worker rest := by
    rintro ⟨turns, h⟩ hdone
    refine ⟨turns, h.waits, h.world_eq, h.workers_perm.trans (run.everyone_retire worker rest), ?_⟩
    exact List.forall_mem_cons.2 ⟨hdone, h.retired⟩
  wake run s sleepers := by
    rintro ⟨turns, h⟩ hsleepers -
    have hperm := h.workers_perm
    rw [Run.everyone_wake hsleepers] at hperm
    obtain ⟨turn, -, hsleep, hworld, hworkers⟩ :=
      Crew.exists_turn hperm (!w.fails seed run.operations) (host.sleepUntil s.wake)
    rw [h.world_eq] at hworld hworkers
    refine ⟨turns ++ [turn], ?_, hworld, hworkers, h.retired⟩
    exact List.forall_mem_append.2 ⟨h.waits, List.forall_mem_singleton.2 (.inr ⟨_, hsleep⟩)⟩

theorem unharmed_iff {workers : List Worker} (run : Run σ) (h : workers.Perm run.retired) :
    (∀ worker ∈ workers, worker.hasPanicked = false) ↔ run.panicked = none := by
  rw [Run.panicked, List.findSome?_eq_none_iff]
  refine forall_congr' fun worker => ?_
  rw [h.mem_iff]
  refine imp_congr_right fun _ => ?_
  cases hactivity : worker.activity <;> simp [Worker.hasPanicked, hactivity]

/-- The simulation is one of the interleavings, and all of its workers come to an
end. -/
theorem exists_interleaving (host : Host σ) (w : Workload) (seed : Nat) (world : σ)
    (hcrew : 0 < w.concurrency) :
    ∃ turns, (∀ turn ∈ turns, turn.Waits host) ∧
      ((Crew.start w world).run host turns).IsOver ∧
      ((Crew.start w world).run host turns).world = (run host w seed world).world ∧
      ((Crew.start w world).run host turns).workers.Perm (run host w seed world).retired := by
  have hstart : (Crew.start w world).Follows host { world } (newWorkers w) [] :=
    ⟨nofun, rfl, by simp [Run.everyone, Crew.run, Crew.start], nofun⟩
  obtain ⟨⟨turns, hfollows⟩, hsleepers⟩ :=
    run_induction hcrew (keeps_follows host w seed (Crew.start w world)) ⟨[], hstart⟩
  have hperm := hfollows.workers_perm
  rw [Run.everyone, hsleepers, List.map_nil, List.nil_append, List.nil_append] at hperm
  exact ⟨turns, hfollows.waits, fun worker hworker =>
    hfollows.retired worker (hperm.mem_iff.1 hworker), hfollows.world_eq, hperm⟩

/-- A simulation without a panic accounts for all calls. -/
theorem total_outcomes {world : σ} (hserves : host.Serves engine) (hcrew : 0 < w.concurrency)
    (hnone : (run host w seed world).panicked = none) :
    (run host w seed world).outcomes.total = w.calls := by
  obtain ⟨turns, -, hover, -, hperm⟩ := exists_interleaving host w seed world hcrew
  have hbalanced := (Crew.balanced_start host engine hcrew world).run hserves turns
  have htotal := hbalanced.total_eq hover ((unharmed_iff _ hperm).2 hnone)
  rw [tally_perm hperm] at htotal
  exact htotal

/-- Simulations conserve calls.  The shares are fair.  However the workers
interleave, no partial sum of the tally overflows, and when all are done without
a panic the tally adds up to the calls and agrees with the breaker's answers.
The simulation is one of the interleavings, and all of its workers come to an
end. -/
theorem conserves_calls (host : Host σ) (engine : σ → Engine) (w : Workload) (seed : Nat)
    (world : σ) (hserves : host.Serves engine) (hcrew : 0 < w.concurrency)
    (hcalls : w.calls ≤ Window.cap) :
    w.SharesFairly ∧
      (∀ turns, ((Crew.start w world).run host turns).Conserves host engine w) ∧
      ((run host w seed world).panicked = none →
        (run host w seed world).outcomes.total = w.calls) ∧
      ∃ turns, (∀ turn ∈ turns, turn.Waits host) ∧
        ((Crew.start w world).run host turns).IsOver ∧
        ((Crew.start w world).run host turns).world = (run host w seed world).world ∧
        tally ((Crew.start w world).run host turns).workers = (run host w seed world).outcomes ∧
        (((Crew.start w world).run host turns).Unharmed ↔
          (run host w seed world).panicked = none) := by
  refine ⟨Workload.sharesFairly hcrew, fun turns => ?_, total_outcomes hserves hcrew, ?_⟩
  · exact ((Crew.balanced_start host engine hcrew world).run hserves turns).conserves hcalls
  · obtain ⟨turns, hwaits, hover, hworld, hperm⟩ := exists_interleaving host w seed world hcrew
    exact ⟨turns, hwaits, hover, hworld, tally_perm hperm, unharmed_iff _ hperm⟩

/-- Two workers whose operations overlap: the second one trips the breaker, and
the first one's next call is refused. -/
theorem conserves_calls_overlapping :
    ∃ e ∈ Engine.new? "db" { minRequests := 1 } .client 0,
      let w : Workload := { calls := 3, concurrency := 2, failureRate := .zero, latency := 5 }
      let turns : List (Turn (Instant × Engine)) :=
        [{ worker := 0, success := true }, { worker := 1, success := true },
          { worker := 1, success := false }, { worker := 0, success := true },
          { worker := 0, success := true }, { worker := 0, success := true }]
      let crew := (Crew.start w (0, e)).run CommandLine.quietHost turns
      0 < w.concurrency ∧ w.calls ≤ Window.cap ∧ crew.IsOver ∧ crew.Unharmed ∧
        tally crew.workers = { succeeded := 1, failed := 1, refusedOpen := 1 } ∧
        crew.Conserves CommandLine.quietHost Prod.snd w := by
  have hrun : ∃ e ∈ Engine.new? "db" { minRequests := 1 } .client 0,
      let crew := (Crew.start { calls := 3, concurrency := 2, failureRate := .zero, latency := 5 }
        (0, e)).run CommandLine.quietHost
        [{ worker := 0, success := true }, { worker := 1, success := true },
          { worker := 1, success := false }, { worker := 0, success := true },
          { worker := 0, success := true }, { worker := 0, success := true }]
      crew.IsOver ∧ crew.Unharmed ∧
        tally crew.workers = { succeeded := 1, failed := 1, refusedOpen := 1 } := by
    decide +kernel
  obtain ⟨e, he, hover, hunharmed, htally⟩ := hrun
  refine ⟨e, he, by decide, by decide, hover, hunharmed, htally, ?_⟩
  exact (conserves_calls CommandLine.quietHost Prod.snd _ 0 (0, e) Host.quietHost_serves (by decide)
    (by decide)).2.1 _

end Breaker.Simulation
