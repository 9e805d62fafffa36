import Breaker.Proofs.Generation

/-!
# The deadline of the current period

A circuit keeps one deadline, and starts a period from six places: the window
that rolls over, the four changes of phase that time and calls make, and the
reset.  Each of them asks the clock anew, so the deadline that is stored is never
one that was meant for an earlier period.

* `Run.BeganAt` finds the instant at which the current period began, by what the
  stages did and without looking at the generation;
* `beganAt_since` says that this is the instant that the timeline gives;
* `expiry_of_current_period` puts it together with the length of the period.

Clients, listeners and their panics are free here, and so is the order in which
methods nest.  Only the clock must hold the deadlines.
-/

namespace Breaker.Engine

/-- The current period of a run began at the given instant: with the breaker
itself, or in the last stage that rolled the window over, changed the phase or
reset the circuit. -/
inductive Run.BeganAt (start : Instant) (run : Run) : Instant → Prop where
  | built (hstages : ∀ s ∈ run.stages, s.turns = 0) : BeganAt start run start
  | turned (before after : List Stage) {s : Stage} (hstages : run.stages = before ++ s :: after)
      (hturn : s.turns = 1) (hafter : ∀ s' ∈ after, s'.turns = 0) : BeganAt start run s.now

section

variable {name : String} {policy : Policy} {audience : Audience} {start began : Instant}
variable {schedule : List (Instant × Move)} {run : Run} {s : Stage}

/-- A stage that starts a period is the last one to do so. -/
theorem beganAt_snoc_of_turns (start : Instant) (run : Run) (hturn : s.turns = 1) :
    (run.snoc s).BeganAt start s.now :=
  .turned run.stages [] rfl hturn (by simp)

/-- A stage that starts no period leaves the current one as it is. -/
theorem Run.BeganAt.snoc (h : run.BeganAt start began) (hturn : s.turns = 0) :
    (run.snoc s).BeganAt start began := by
  cases h with
  | built hstages =>
    refine .built ?_
    simp only [Run.snoc, List.forall_mem_append, List.forall_mem_singleton]
    exact ⟨hstages, hturn⟩
  | turned before after hstages hlast hafter =>
    refine .turned before (after ++ [s]) ?_ hlast ?_
    · simp [Run.snoc, hstages]
    · simp only [List.forall_mem_append, List.forall_mem_singleton]
      exact ⟨hafter, hturn⟩

/-- A period begins when the breaker is built or something is done with it. -/
theorem Run.BeganAt.mem (h : run.BeganAt start began) :
    began ∈ start :: run.stages.map Stage.now := by
  cases h with
  | built hstages => exact List.mem_cons_self
  | turned before after hstages hturn hafter =>
    rw [hstages]
    simp

/-- The timeline gives the instant at which the current period began. -/
theorem beganAt_since (hlife : life name policy audience start schedule = some run) :
    run.BeganAt start (run.since start) := by
  refine (reached_induction (motive := fun run => run.BeganAt start (run.since start)) ?_ ?_
    hlife).2
  · exact fun e _ => .built (by simp)
  · rintro run ⟨e, now, move, r⟩ hreached hbegan rfl - hvalid
    have took := step_took hvalid
    have hturns := took.turns_eq_ite (hreached.past took)
    rw [Run.since_snoc]
    split
    next hevent =>
      rw [if_pos hevent] at hturns
      exact beganAt_snoc_of_turns start run hturns
    next hevent =>
      rw [if_neg hevent] at hturns
      exact hbegan.snoc hturns

/-- The current period began no later than now, if the clock never goes back. -/
theorem since_le (hlife : life name policy audience start schedule = some run) {now : Instant}
    (hlater : ∀ instant ∈ start :: schedule.map Prod.fst, instant ≤ now) :
    run.since start ≤ now := by
  obtain ⟨e, -, hrun⟩ := Option.bind_eq_some_iff.1 hlife
  have hmem := (beganAt_since hlife).mem
  have hinstants : run.stages.map Stage.now = schedule.map Prod.fst := by
    rw [← run_stages hrun, List.map_map]
    rfl
  rw [hinstants] at hmem
  exact hlater _ hmem

/-- The deadline belongs to the current period.  At every point of a life let
`s` be the instant at which the current period began; it is not later than now.
A half-open circuit has no deadline, the deadline of a closed one is `s` and the
length of its window, and that of an open one `s` and the time it stays open.
So a circuit without a deadline is half open: neither an open circuit that
would be due at once nor a closed one that would never roll over is reached. -/
theorem expiry_of_current_period (hlife : life name policy audience start schedule = some run)
    (hfits : ∀ entry ∈ schedule, policy.Fits entry.1) :
    run.BeganAt start (run.since start) ∧
      (∀ now, (∀ instant ∈ start :: schedule.map Prod.fst, instant ≤ now) →
        run.since start ≤ now) ∧
      (run.engine.circuit.phase = .halfOpen → run.engine.circuit.expiry = none) ∧
      (run.engine.circuit.phase = .closed →
        run.engine.circuit.expiry = some (run.since start + policy.closedWindow)) ∧
      (run.engine.circuit.phase = .opened →
        run.engine.circuit.expiry = some (run.since start + policy.openDuration)) ∧
      (run.engine.circuit.expiry = none → run.engine.circuit.phase = .halfOpen) := by
  have hexpiry := expiry_of_life hlife hfits
  refine ⟨beganAt_since hlife, fun now => since_le hlife, ?_⟩
  cases hphase : run.engine.circuit.phase <;> simp [hexpiry, hphase, Policy.period]

/-- The window has rolled over, the circuit has opened, and the listener resets
it while it hears of that: the deadline is the one that the reset has set. -/
theorem expiry_of_current_period_reset :
    ∃ run ∈ life "db" { minRequests := 1, closedWindow := 10, openDuration := 5 } .client 0
        [(12, .query), (13, .call), (14, .finish false), (15, .reset), (16, .heard), (17, .heard)],
      run.engine.circuit.phase = .closed ∧ run.BeganAt 0 15 ∧
        run.engine.circuit.expiry = some 25 := by
  obtain ⟨run, hlife, hphase, hsince⟩ :
      ∃ run ∈ life "db" { minRequests := 1, closedWindow := 10, openDuration := 5 } .client 0
          [(12, .query), (13, .call), (14, .finish false), (15, .reset), (16, .heard),
            (17, .heard)],
        run.engine.circuit.phase = .closed ∧ run.since 0 = 15 := by
    decide +kernel
  obtain ⟨hbegan, -, -, hclosed, -⟩ := expiry_of_current_period hlife (by decide +kernel)
  rw [hsince] at hbegan hclosed
  exact ⟨run, hlife, hphase, hbegan, hclosed hphase⟩

end

end Breaker.Engine
