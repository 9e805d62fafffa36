import Breaker.Engine

/-!
# Simulated workloads

Workers share a number of calls and make them one after another.  The
operation of a call takes the latency of the workload and then fails or not; a
worker whose call meets an open circuit waits as long, and one whose call is
refused as one probe too many goes on at once.

A worker works in strides, each of which touches the breaker once:
`Worker.stride` asks for admission of the next call or ends the running one.
Strides of several workers can be interleaved at will.  `Simulation.run` takes
them in one order, on a `Host` with a clock: workers start in order, each goes
on until it sleeps, and the one that has slept longest goes on when it is due.
All sleep equally long, so the sleepers stand in a queue.
-/

namespace Breaker

/-- What became of calls. -/
structure Outcomes where
  succeeded : Nat := 0
  failed : Nat := 0
  refusedOpen : Nat := 0
  refusedHalfOpen : Nat := 0
  deriving DecidableEq, Repr

namespace Outcomes

/-- The outcomes of two workers together. -/
def add (a b : Outcomes) : Outcomes :=
  { succeeded := a.succeeded + b.succeeded
    failed := a.failed + b.failed
    refusedOpen := a.refusedOpen + b.refusedOpen
    refusedHalfOpen := a.refusedHalfOpen + b.refusedHalfOpen }

/-- How many calls there were. -/
def total (o : Outcomes) : Nat := o.succeeded + o.failed + o.refusedOpen + o.refusedHalfOpen

/-- Counts a refused call. -/
def refuse (o : Outcomes) : Refusal → Outcomes
  | .opened => { o with refusedOpen := o.refusedOpen + 1 }
  | .tooManyRequests => { o with refusedHalfOpen := o.refusedHalfOpen + 1 }

/-- Counts a call whose operation has ended. -/
def complete (o : Outcomes) (success : Bool) : Outcomes :=
  if success then { o with succeeded := o.succeeded + 1 } else { o with failed := o.failed + 1 }

theorem total_add (a b : Outcomes) : (a.add b).total = a.total + b.total := by
  simp only [total, add]
  omega

theorem total_refuse (o : Outcomes) (r : Refusal) : (o.refuse r).total = o.total + 1 := by
  cases r <;> simp only [total, refuse] <;> omega

theorem total_complete (o : Outcomes) (success : Bool) :
    (o.complete success).total = o.total + 1 := by
  cases success <;> simp [total, complete] <;> omega

end Outcomes

/-- The shape of a workload. -/
structure Workload where
  calls : Nat
  concurrency : Nat
  failureRate : Binary64
  latency : Span
  deriving DecidableEq, Repr

namespace Workload

/-- How many calls the worker of that index makes: the remainder goes to the
first workers. -/
def share (w : Workload) (worker : Nat) : Nat :=
  w.calls / w.concurrency + if worker < w.calls % w.concurrency then 1 else 0

/-- Does the operation with that number fail?  A rate of one or more always
does and a rate of zero or less never; between them the numbers, scattered
over 53 bits, fall below the rate or not. -/
def fails (w : Workload) (seed number : Nat) : Bool :=
  if Binary64.one.le w.failureRate then true
  else if w.failureRate.le .zero then false
  else
    let mixed := (seed + (number + 1) * 0x9E3779B97F4A7C15) % 0x10000000000000000
    let mixed := (mixed ^^^ (mixed >>> 30)) * 0xBF58476D1CE4E5B9 % 0x10000000000000000
    let mixed := (mixed ^^^ (mixed >>> 27)) * 0x94D049BB133111EB % 0x10000000000000000
    (Binary64.ofRatio ((mixed ^^^ (mixed >>> 31)) >>> 11) (0x20000000000000)).lt w.failureRate

end Workload

namespace Simulation

/-- What a simulation needs around it: a clock that can be moved on to an
instant, and a breaker that takes moves, listeners included. -/
structure Host (σ : Type) where
  now : σ → Instant
  sleepUntil : Instant → σ → σ
  send : Move → σ → σ × Reply

/-- What a worker is at. -/
inductive Activity where
  /-- About to make the next call, if one is left. -/
  | ready
  /-- The operation of its call runs. -/
  | operating (t : Ticket)
  /-- Waiting because the circuit was open. -/
  | resting
  /-- A panic has ended it. -/
  | panicked (text : String)
  deriving DecidableEq, Repr

/-- A worker: the calls it has still to begin, what became of the others, and
what it is at. -/
structure Worker where
  left : Nat
  outcomes : Outcomes := {}
  activity : Activity := .ready
  deriving DecidableEq, Repr

namespace Worker

/-- Does the worker wait as long as the latency? -/
def sleeps (worker : Worker) : Bool :=
  match worker.activity with
  | .operating _ => true
  | .resting => true
  | _ => false

/-- Has the worker nothing more to do? -/
def isDone (worker : Worker) : Bool :=
  match worker.activity with
  | .ready => worker.left == 0
  | .panicked _ => true
  | _ => false

/-- The calls that the worker answers for: those over, the running one, and
those left. -/
def charge (worker : Worker) : Nat :=
  worker.outcomes.total + worker.left +
    match worker.activity with
    | .operating _ => 1
    | _ => 0

/-- The next call asks for admission; the operation of an admitted one waits
at once. -/
def ask {σ : Type} (host : Host σ) (world : σ) (worker : Worker) (left : Nat) : σ × Worker :=
  match host.send .call world with
  | (world, .operating t) =>
    let (world, _) := host.send .suspend world
    (world, { worker with left, activity := .operating t })
  | (world, .refused .opened) =>
    (world, { left, outcomes := worker.outcomes.refuse .opened, activity := .resting })
  | (world, .refused .tooManyRequests) =>
    (world, { left, outcomes := worker.outcomes.refuse .tooManyRequests })
  | (world, .panicked text) => (world, { worker with activity := .panicked text })
  | (world, _) => (world, { worker with activity := .panicked Clock.overflowText })

/-- The running operation ends. -/
def finish {σ : Type} (host : Host σ) (world : σ) (worker : Worker) (t : Ticket)
    (success : Bool) : σ × Worker :=
  let (world, _) := host.send (.resume t) world
  match host.send (.finish success) world with
  | (world, .panicked text) => (world, { worker with activity := .panicked text })
  | (world, _) =>
    (world, { worker with outcomes := worker.outcomes.complete success, activity := .ready })

/-- One stride; `success` tells how the operation ends, if one runs. -/
def stride {σ : Type} (host : Host σ) (success : Bool) (world : σ) (worker : Worker) :
    σ × Worker :=
  match worker.activity, worker.left with
  | .ready, 0 => (world, worker)
  | .ready, left + 1 => ask host world worker left
  | .operating t, _ => finish host world worker t success
  | .resting, _ => (world, { worker with activity := .ready })
  | .panicked _, _ => (world, worker)

end Worker

/-- A worker that sleeps until `wake`. -/
structure Sleeper where
  wake : Instant
  worker : Worker
  deriving DecidableEq, Repr

/-- The state of a run: the world, the sleepers by the instant at which they
wake, the workers that are done, and how many operations have ended. -/
structure Run (σ : Type) where
  world : σ
  sleepers : List Sleeper := []
  retired : List Worker := []
  operations : Nat := 0

namespace Run

variable {σ : Type}

/-- A stride of a worker; operations end as the workload says, in the order in
which they end. -/
def stride (host : Host σ) (w : Workload) (seed : Nat) (run : Run σ) (worker : Worker) :
    Run σ × Worker :=
  let (world, next) := worker.stride host (!w.fails seed run.operations) run.world
  let ended := match worker.activity with
    | .operating _ => 1
    | _ => 0
  ({ run with world, operations := run.operations + ended }, next)

/-- Strides of a worker until it sleeps or is done.  A call takes two strides at
most, which bounds their number; a latency of zero is no sleep. -/
def work (host : Host σ) (w : Workload) (seed : Nat) : Nat → Worker → Run σ → Run σ
  | 0, worker, run => { run with retired := worker :: run.retired }
  | fuel + 1, worker, run =>
    if worker.isDone then { run with retired := worker :: run.retired }
    else
      let (run, worker) := run.stride host w seed worker
      if worker.sleeps && w.latency != 0 then
        { run with
          sleepers := run.sleepers ++ [{ wake := host.now run.world + w.latency, worker }] }
      else work host w seed fuel worker run

/-- Wakes sleepers, the first in the queue first, moving the clock on to each
of them.  Every sleep belongs to a call, so the number of calls bounds them. -/
def drain (host : Host σ) (w : Workload) (seed : Nat) : Nat → Run σ → Run σ
  | 0, run => run
  | fuel + 1, run =>
    match run.sleepers with
    | [] => run
    | s :: sleepers =>
      let world := host.sleepUntil s.wake run.world
      let (run, worker) := { run with world, sleepers }.stride host w seed s.worker
      drain host w seed fuel (work host w seed (2 * worker.left + 1) worker run)

/-- The outcomes of all workers that are done. -/
def outcomes (run : Run σ) : Outcomes :=
  run.retired.foldr (fun worker sum => worker.outcomes.add sum) {}

/-- A panic that ended a worker, if one did. -/
def panicked (run : Run σ) : Option String :=
  run.retired.findSome? fun worker =>
    match worker.activity with
    | .panicked text => some text
    | _ => none

end Run

/-- The whole workload: every worker starts, then all sleep and wake until
none is left. -/
def run {σ : Type} (host : Host σ) (w : Workload) (seed : Nat) (world : σ) : Run σ :=
  let started := (List.range w.concurrency).foldl
    (fun run worker =>
      let left := w.share worker
      Run.work host w seed (2 * left + 1) { left } run)
    { world }
  started.drain host w seed w.calls

end Simulation

end Breaker
