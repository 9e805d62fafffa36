import Breaker.Simulation
import Mathlib.Algebra.GroupWithZero.Nat

/-!
# How a simulation goes

A simulation consists of strides of workers, with sleeps between them.  This
module takes it apart once, so that other proofs need not look into it.

* `Workload.SharesFairly`: the shares of the workers, and `sharesFairly` with
  what they add up to.
* `Worker.Goes` has one case for each way a stride can go, and `stride_goes`
  says that there are no others.
* `Simulation.run_induction` is the induction over a simulation: what every
  stride, every sleep and every retirement keeps holds at the end, and then
  nobody sleeps any more.

The run is written with fuel.  A worker has at most `Worker.steps` strides
before it sleeps or is done, and `Run.ahead` bounds the sleeps that are still
to come; both fall as the run goes on, which is why the fuel is enough.
-/

namespace Breaker

namespace Workload

/-! ## The shares of the workers -/

/-- The shares add up to the number of calls, and no two of them differ by more
than one. -/
structure SharesFairly (w : Workload) : Prop where
  sum_eq : ((List.range w.concurrency).map w.share).sum = w.calls
  share_le : ∀ i < w.concurrency, ∀ j < w.concurrency, w.share i ≤ w.share j + 1

/-- Of `n` equal shares the first `k` get one more. -/
theorem sum_range_share (q k n : Nat) :
    ((List.range n).map fun i => q + if i < k then 1 else 0).sum = n * q + min n k := by
  induction n with
  | zero => simp
  | succ n ih =>
    rw [List.range_succ, List.map_append, List.sum_append, ih, Nat.succ_mul]
    simp only [List.map_cons, List.map_nil, List.sum_cons, List.sum_nil]
    split <;> omega

theorem sharesFairly {w : Workload} (hcrew : 0 < w.concurrency) : w.SharesFairly where
  sum_eq := by
    have hmod := Nat.mod_lt w.calls hcrew
    have hsum := sum_range_share (w.calls / w.concurrency) (w.calls % w.concurrency) w.concurrency
    rw [Nat.min_eq_right (Nat.le_of_lt hmod), Nat.div_add_mod] at hsum
    exact hsum
  share_le i _ j _ := by
    unfold share
    split <;> split <;> omega

end Workload

namespace Simulation

variable {σ : Type} {host : Host σ} {w : Workload} {seed : Nat}

namespace Worker

/-! ## One stride -/

/-- A panic has ended the worker. -/
def hasPanicked (worker : Worker) : Bool :=
  match worker.activity with
  | .panicked _ => true
  | _ => false

/-- What a stride makes of a worker, one case for each way it can go. -/
inductive Goes (host : Host σ) (success : Bool) (world : σ) : Worker → Worker → Prop where
  | idles {worker : Worker} (hdone : worker.isDone = true) : Goes host success world worker worker
  | begins {left : Nat} {outcomes : Outcomes} {t : Ticket}
      (hreply : (host.send .call world).2 = .operating t) :
      Goes host success world { left := left + 1, outcomes }
        { left, outcomes, activity := .operating t }
  | refusedOpen {left : Nat} {outcomes : Outcomes}
      (hreply : (host.send .call world).2 = .refused .opened) :
      Goes host success world { left := left + 1, outcomes }
        { left, outcomes := outcomes.refuse .opened, activity := .resting }
  | refusedHalfOpen {left : Nat} {outcomes : Outcomes}
      (hreply : (host.send .call world).2 = .refused .tooManyRequests) :
      Goes host success world { left := left + 1, outcomes }
        { left, outcomes := outcomes.refuse .tooManyRequests }
  | ends {left : Nat} {outcomes : Outcomes} {t : Ticket} :
      Goes host success world { left, outcomes, activity := .operating t }
        { left, outcomes := outcomes.complete success }
  | wakes {left : Nat} {outcomes : Outcomes} :
      Goes host success world { left, outcomes, activity := .resting } { left, outcomes }
  | panics {worker : Worker} (hdone : worker.isDone = false) (text : String) :
      Goes host success world worker { worker with activity := .panicked text }

theorem ask_goes (host : Host σ) (success : Bool) (world : σ) (left : Nat) (outcomes : Outcomes) :
    Goes host success world { left := left + 1, outcomes }
      (ask host world { left := left + 1, outcomes } left).2 := by
  unfold ask
  split
  next hsend => exact .begins (congrArg Prod.snd hsend)
  next hsend => exact .refusedOpen (congrArg Prod.snd hsend)
  next hsend => exact .refusedHalfOpen (congrArg Prod.snd hsend)
  · exact .panics rfl _
  · exact .panics rfl _

theorem finish_goes (host : Host σ) (success : Bool) (world : σ) (left : Nat)
    (outcomes : Outcomes) (t : Ticket) :
    Goes host success world { left, outcomes, activity := .operating t }
      (finish host world { left, outcomes, activity := .operating t } t success).2 := by
  simp only [finish]
  split
  · exact .panics rfl _
  · exact .ends

/-- The ways of `Goes` are all there are. -/
theorem stride_goes (host : Host σ) (success : Bool) (world : σ) (worker : Worker) :
    Goes host success world worker (worker.stride host success world).2 := by
  obtain ⟨left, outcomes, activity⟩ := worker
  cases activity with
  | ready =>
    cases left with
    | zero => exact .idles rfl
    | succ left => exact ask_goes host success world left outcomes
  | operating t => exact finish_goes host success world left outcomes t
  | resting => exact .wakes
  | panicked text => exact .idles rfl

/-- How many strides a worker can make before it sleeps or is done. -/
def steps (worker : Worker) : Nat :=
  if worker.isDone then 0 else 2 * worker.left + worker.sleeps.toNat

/-- How many sleeps a worker has still to end. -/
def duty (worker : Worker) : Nat := worker.left + worker.sleeps.toNat

variable {worker next : Worker} {success : Bool} {world : σ}

theorem not_isDone_of_sleeps (h : worker.sleeps = true) : worker.isDone = false := by
  obtain ⟨left, outcomes, activity⟩ := worker
  cases activity <;> first | rfl | cases h

theorem isDone_of_steps (h : worker.steps = 0) : worker.isDone = true := by
  obtain ⟨left, outcomes, activity⟩ := worker
  cases activity with
  | ready =>
    cases left with
    | zero => rfl
    | succ left => simp [steps, isDone] at h
  | operating t => simp [steps, isDone, sleeps] at h
  | resting => simp [steps, isDone, sleeps] at h
  | panicked text => rfl

theorem steps_le (h : worker.sleeps = false) : worker.steps ≤ 2 * worker.left := by
  unfold steps
  split <;> simp [h]

theorem Goes.steps_lt (h : Goes host success world worker next) (hdone : worker.isDone = false) :
    next.steps < worker.steps := by
  have hsteps : worker.steps = 2 * worker.left + worker.sleeps.toNat := by simp [steps, hdone]
  rw [hsteps]
  cases h with
  | idles hidle => cases hidle.symm.trans hdone
  | begins hreply => simp [steps, isDone, sleeps]; omega
  | refusedOpen hreply => simp [steps, isDone, sleeps]; omega
  | refusedHalfOpen hreply => exact Nat.lt_of_le_of_lt (steps_le rfl) (by simp [sleeps])
  | ends => exact Nat.lt_of_le_of_lt (steps_le rfl) (by simp [sleeps])
  | wakes => exact Nat.lt_of_le_of_lt (steps_le rfl) (by simp [sleeps])
  | panics _ text =>
    rw [← hsteps]
    exact Nat.pos_of_ne_zero fun hzero => by simp [isDone_of_steps hzero] at hdone

theorem Goes.duty_le (h : Goes host success world worker next) : next.duty ≤ worker.duty := by
  cases h with
  | panics hdone text => simp [duty, sleeps]
  | _ => simp [duty, sleeps]

/-- A worker that sleeps ends its sleep with its next stride. -/
theorem Goes.of_sleeps (h : Goes host success world worker next) (hsleeps : worker.sleeps = true) :
    next.sleeps = false ∧ next.left = worker.left := by
  cases h with
  | idles hdone => cases hdone.symm.trans (not_isDone_of_sleeps hsleeps)
  | begins hreply => cases hsleeps
  | refusedOpen hreply => cases hsleeps
  | refusedHalfOpen hreply => cases hsleeps
  | ends => exact ⟨rfl, rfl⟩
  | wakes => exact ⟨rfl, rfl⟩
  | panics hdone text => exact ⟨rfl, rfl⟩

end Worker

/-! ## The whole run -/

namespace Run

/-- How many sleeps the sleepers have still to end. -/
def ahead (run : Run σ) : Nat := (run.sleepers.map fun s => s.worker.duty).sum

/-- Every sleeper has a reason to sleep. -/
def Asleep (run : Run σ) : Prop := ∀ s ∈ run.sleepers, s.worker.sleeps = true

/-- All workers: those of the list, the sleepers, and those that are done. -/
def everyone (run : Run σ) (active : List Worker) : List Worker :=
  active ++ (run.sleepers.map Sleeper.worker ++ run.retired)

theorem everyone_sleep (run : Run σ) (s : Sleeper) (rest : List Worker) :
    (run.everyone (s.worker :: rest)).Perm
      (({ run with sleepers := run.sleepers ++ [s] } : Run σ).everyone rest) := by
  have hsleepers : (s.worker :: run.sleepers.map Sleeper.worker).Perm
      ((run.sleepers ++ [s]).map Sleeper.worker) := by
    rw [List.map_append]
    exact (List.perm_append_singleton s.worker _).symm
  exact List.perm_middle.symm.trans ((hsleepers.append_right run.retired).append_left rest)

theorem everyone_retire (run : Run σ) (worker : Worker) (rest : List Worker) :
    (run.everyone (worker :: rest)).Perm
      (({ run with retired := worker :: run.retired } : Run σ).everyone rest) :=
  List.perm_middle.symm.trans (List.perm_middle.symm.append_left rest)

theorem everyone_wake {run : Run σ} {s : Sleeper} {sleepers : List Sleeper}
    (h : run.sleepers = s :: sleepers) :
    run.everyone [] = s.worker :: (sleepers.map Sleeper.worker ++ run.retired) := by
  simp [everyone, h]

/-- What every stride, every sleep and every retirement keeps; the workers of
the list are those awake, the first of them being the one at work. -/
structure Keeps (host : Host σ) (w : Workload) (seed : Nat)
    (motive : Run σ → List Worker → Prop) : Prop where
  stride : ∀ (run : Run σ) worker rest, motive run (worker :: rest) → worker.isDone = false →
    (worker.sleeps && w.latency != 0) = false →
    motive (run.stride host w seed worker).1 ((run.stride host w seed worker).2 :: rest)
  sleep : ∀ (run : Run σ) worker rest, motive run (worker :: rest) → worker.sleeps = true →
    w.latency ≠ 0 →
    motive
      { run with
        sleepers := run.sleepers ++ [{ wake := host.now run.world + w.latency, worker }] } rest
  retire : ∀ (run : Run σ) worker rest, motive run (worker :: rest) → worker.isDone = true →
    motive { run with retired := worker :: run.retired } rest
  wake : ∀ (run : Run σ) s sleepers, motive run [] → run.sleepers = s :: sleepers →
    s.worker.sleeps = true →
    let woken := { run with world := host.sleepUntil s.wake run.world, sleepers }
    motive (woken.stride host w seed s.worker).1 [(woken.stride host w seed s.worker).2]

variable {motive : Run σ → List Worker → Prop}

theorem stride_goes (host : Host σ) (w : Workload) (seed : Nat) (run : Run σ) (worker : Worker) :
    Worker.Goes host (!w.fails seed run.operations) run.world worker
      (run.stride host w seed worker).2 :=
  Worker.stride_goes _ _ _ worker

/-- A worker at work comes to sleep or is done, and its sleep is one of those
that it had before it. -/
theorem Keeps.work (h : Keeps host w seed motive) {fuel : Nat} {worker : Worker} {run : Run σ}
    {rest : List Worker} (hstart : motive run (worker :: rest)) (hasleep : run.Asleep)
    (hfuel : worker.steps ≤ fuel) (hawake : (worker.sleeps && w.latency != 0) = false) :
    motive (work host w seed fuel worker run) rest ∧ (work host w seed fuel worker run).Asleep ∧
      (work host w seed fuel worker run).ahead ≤ run.ahead + worker.duty := by
  induction fuel generalizing worker run with
  | zero =>
    have hdone := Worker.isDone_of_steps (Nat.le_zero.1 hfuel)
    exact ⟨h.retire run worker rest hstart hdone, hasleep, Nat.le_add_right _ _⟩
  | succ fuel ih =>
    rw [Run.work]
    cases hdone : worker.isDone with
    | true => exact ⟨h.retire run worker rest hstart hdone, hasleep, Nat.le_add_right _ _⟩
    | false =>
      have hgoes := stride_goes host w seed run worker
      have hnext := h.stride run worker rest hstart hdone hawake
      have hduty := hgoes.duty_le
      have hsteps := hgoes.steps_lt hdone
      simp only [Bool.false_eq_true, if_false]
      generalize hstride : run.stride host w seed worker = strode at hnext hduty hsteps
      obtain ⟨run', next⟩ := strode
      simp only at hnext hduty hsteps
      have hsleepers : run'.sleepers = run.sleepers := by
        rw [show run' = (run.stride host w seed worker).1 by rw [hstride]]
        rfl
      have hasleep' : run'.Asleep := by
        unfold Asleep
        rwa [hsleepers]
      have hahead : run'.ahead = run.ahead := by rw [ahead, ahead, hsleepers]
      simp only
      split
      next hsleeps =>
        obtain ⟨hsleeps, hlatency⟩ := Bool.and_eq_true_iff.1 hsleeps
        refine ⟨h.sleep run' next rest hnext hsleeps (by simpa using hlatency), ?_, ?_⟩
        · intro s hs
          rcases List.mem_append.1 hs with hs | hs
          · exact hasleep' s hs
          · rw [List.mem_singleton.1 hs]
            exact hsleeps
        · simp only [ahead, List.map_append, List.sum_append, List.map_cons, List.map_nil,
            List.sum_cons, List.sum_nil, hsleepers]
          omega
      next hsleeps =>
        obtain ⟨hmotive, hstill, hle⟩ :=
          ih hnext hasleep' (by omega) (Bool.not_eq_true _ ▸ hsleeps)
        exact ⟨hmotive, hstill, by omega⟩

/-- The sleepers wake one after another, until none is left. -/
theorem Keeps.drain (h : Keeps host w seed motive) {fuel : Nat} {run : Run σ}
    (hstart : motive run []) (hasleep : run.Asleep) (hfuel : run.ahead ≤ fuel) :
    motive (run.drain host w seed fuel) [] ∧ (run.drain host w seed fuel).sleepers = [] := by
  induction fuel generalizing run with
  | zero =>
    refine ⟨hstart, ?_⟩
    cases hsleepers : run.sleepers with
    | nil => exact hsleepers
    | cons s sleepers =>
      have hs := hasleep s (by simp [hsleepers])
      simp [ahead, hsleepers, Worker.duty, hs] at hfuel
  | succ fuel ih =>
    rw [Run.drain]
    cases hsleepers : run.sleepers with
    | nil => exact ⟨hstart, hsleepers⟩
    | cons s sleepers =>
      have hs : s.worker.sleeps = true := hasleep s (by simp [hsleepers])
      have hnext := h.wake run s sleepers hstart hsleepers hs
      simp only at hnext ⊢
      generalize hwoken : { run with world := host.sleepUntil s.wake run.world, sleepers } = woken
        at hnext ⊢
      obtain ⟨hawake, hleft⟩ :=
        (stride_goes host w seed woken s.worker).of_sleeps hs
      have hahead : run.ahead = s.worker.left + 1 + woken.ahead := by
        simp [← hwoken, ahead, hsleepers, Worker.duty, hs]
      have hasleep' : (woken.stride host w seed s.worker).1.Asleep := by
        intro s' hs'
        rw [show (woken.stride host w seed s.worker).1.sleepers = sleepers by rw [← hwoken]; rfl]
          at hs'
        exact hasleep s' (by simp [hsleepers, hs'])
      have hsteps : (woken.stride host w seed s.worker).2.steps ≤
          2 * (woken.stride host w seed s.worker).2.left + 1 :=
        Nat.le_succ_of_le (Worker.steps_le hawake)
      obtain ⟨hmotive, hstill, hle⟩ := h.work hnext hasleep' hsteps (by rw [hawake]; rfl)
      refine ih hmotive hstill ?_
      have hsame : (woken.stride host w seed s.worker).1.ahead = woken.ahead := rfl
      have hduty : (woken.stride host w seed s.worker).2.duty = s.worker.left := by
        simp [Worker.duty, hawake, hleft]
      omega

/-- The workers start one after another. -/
theorem Keeps.begin (h : Keeps host w seed motive) {run : Run σ} {shares : List Nat}
    (hstart : motive run (shares.map fun left => { left })) (hasleep : run.Asleep) :
    let started := shares.foldl
      (fun run left => Run.work host w seed (2 * left + 1) { left } run) run
    motive started [] ∧ started.Asleep ∧ started.ahead ≤ run.ahead + shares.sum := by
  induction shares generalizing run with
  | nil => exact ⟨hstart, hasleep, Nat.le_refl _⟩
  | cons left shares ih =>
    rw [List.map_cons] at hstart
    have hsteps : ({ left } : Worker).steps ≤ 2 * left + 1 :=
      Nat.le_succ_of_le (Worker.steps_le rfl)
    have hduty : ({ left } : Worker).duty = left := rfl
    obtain ⟨hmotive, hstill, hle⟩ := h.work hstart hasleep hsteps rfl
    obtain ⟨hmotive', hstill', hle'⟩ := ih hmotive hstill
    refine ⟨hmotive', hstill', Nat.le_trans hle' ?_⟩
    rw [List.sum_cons]
    omega

end Run

/-- The workers of a workload before their first stride. -/
def newWorkers (w : Workload) : List Worker :=
  ((List.range w.concurrency).map w.share).map fun left => { left }

/-- The induction over a simulation: what every stride, every sleep and every
retirement keeps holds when nobody sleeps any more. -/
theorem run_induction {motive : Run σ → List Worker → Prop} {world : σ}
    (hcrew : 0 < w.concurrency) (hkeeps : Run.Keeps host w seed motive)
    (hstart : motive { world } (newWorkers w)) :
    motive (run host w seed world) [] ∧ (run host w seed world).sleepers = [] := by
  obtain ⟨hmotive, hasleep, hahead⟩ := hkeeps.begin hstart nofun
  rw [(Workload.sharesFairly hcrew).sum_eq, List.foldl_map] at hahead
  rw [List.foldl_map] at hmotive hasleep
  have hnone : ({ world } : Run σ).ahead = 0 := rfl
  exact hkeeps.drain hmotive hasleep (Nat.le_trans hahead (by omega))

end Simulation

end Breaker
