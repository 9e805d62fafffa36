import Breaker.Proofs.Period

/-!
# When a closed circuit opens

Only a failure can open a closed circuit, and only one of a call that was
admitted in the current period, reported before that period is over.  Whether
it does is decided by the counters of the period, the failure included.

* `Took.trips_iff` finds the one turn of the circuit that goes from closed to
  open;
* `rules_eq_opened_iff` reads off the move and the counters when it is made;
* `trips_iff_of_life` says both in terms of the history of the breaker: the
  ledger of the period, and the instant at which the period began.

The deadline of a period is set when it begins, so a call that is counted in
the window is younger than a window is long.
-/

namespace Breaker

/-- A closed circuit with a deadline is due when the deadline has come. -/
theorem Circuit.isDue_closed {now expiry : Instant} {c : Circuit} (hphase : c.phase = .closed)
    (hexpiry : c.expiry = some expiry) : c.isDue now = true ↔ expiry ≤ now := by
  simp [isDue, hphase, hexpiry]

namespace Engine

section

variable {e : Engine} {now : Instant} {move : Move}

/-- What lapses in a closed circuit is its window. -/
theorem lapses_closed (hphase : e.circuit.phase = .closed) :
    e.lapses now move = none ∨ e.lapses now move = some .closed := by
  unfold lapses Circuit.lapse
  rw [if_pos hphase]
  split
  · split
    · exact .inr rfl
    · exact .inl rfl
  · exact .inl rfl

theorem lapses_eq_none_iff_of_ending {t : Ticket} {success : Bool}
    (hending : e.ending move = some (t, success)) :
    e.lapses now move = none ↔ e.circuit.isDue now = false := by
  rw [lapses, if_pos (evaluates_of_ending hending), Circuit.lapse]
  cases e.circuit.isDue now <;> simp

/-- Of all that a move does itself, only a failure of the current generation
opens a closed circuit, and only when the counters say so. -/
theorem rules_eq_opened_iff (hphase : e.circuit.phase = .closed) :
    e.rules move = some .opened ↔
      ∃ t, e.ending move = some (t, false) ∧ t.generation = e.circuit.generation ∧
        Circuit.shouldTrip e.policy (e.circuit.window.record false) = true := by
  cases hending : e.ending move with
  | none =>
    have hrules : e.rules move ≠ some .opened := by
      unfold rules
      split
      · simp
      · simp [hending]
    simp [hrules]
  | some ended =>
    obtain ⟨t, success⟩ := ended
    rw [rules_of_ending hending]
    by_cases hcurrent : t.generation = e.circuit.generation
    · cases success with
      | true => simp [Circuit.verdict, Circuit.record, hphase]
      | false => simp [Circuit.verdict, Circuit.record, hphase, hcurrent]
    · rw [if_neg hcurrent]
      simp only [reduceCtorEq, Option.some.injEq, Prod.mk.injEq, false_iff, not_exists, not_and]
      rintro t' ⟨rfl, -⟩ hcurrent'
      exact absurd hcurrent' hcurrent

/-- The way from closed to open is taken when nothing has lapsed and the move
itself opens the circuit. -/
theorem Took.trips_iff {r : Response} (h : e.Took now move r) (hpast : e.Past move) :
    { source := .closed, target := .opened } ∈
        Stage.changes { before := e, now, move, response := r } ↔
      e.circuit.phase = .closed ∧ e.lapses now move = none ∧ e.rules move = some .opened := by
  rw [h.mem_changes_iff hpast]
  constructor
  · rintro ⟨hphase, -, hstarts⟩
    have hlapses : e.lapses now move = none ∨ e.lapses now move = some .closed :=
      lapses_closed hphase
    rcases hlapses with hnone | hclosed
    · exact ⟨hphase, hnone, starts_of_not_lapses hnone ▸ hstarts⟩
    · rw [starts_of_lapses hclosed] at hstarts
      cases hstarts
  · rintro ⟨hphase, hnone, hrules⟩
    exact ⟨hphase, Phase.noConfusion, (starts_of_not_lapses hnone).trans hrules⟩

end

section

variable {name : String} {policy : Policy} {audience : Audience} {start : Instant}
variable {schedule : List (Instant × Move)} {run : Run} {now : Instant} {move : Move} {r : Response}

/-- When a closed circuit opens, in terms of the ledger of its period and of
the instant at which the period began. -/
theorem opens_iff_failure (hlife : life name policy audience start schedule = some run)
    (hfits : ∀ entry ∈ schedule, policy.Fits entry.1)
    (hstep : run.engine.step now move = some r) :
    { source := .closed, target := .opened } ∈
        Stage.changes { before := run.engine, now, move, response := r } ↔
      run.engine.circuit.phase = .closed ∧ now < run.since start + policy.closedWindow ∧
        ∃ t, run.engine.ending move = some (t, false) ∧ t.serial ∈ run.ledger.calls ∧
          policy.minRequests ≤ (run.ledger.note (.ended t.serial false)).window.requests ∧
          policy.threshold.le (run.ledger.note (.ended t.serial false)).window.failureRate := by
  have hreached := reached_of_life hlife
  have took := step_took hstep
  have hwindow : run.engine.circuit.window = run.ledger.window := hreached.tracks.window
  rw [took.trips_iff (hreached.past took)]
  refine and_congr_right fun hphase => ?_
  rw [rules_eq_opened_iff hphase, hwindow, hreached.policy_eq]
  have hexpiry := expiry_of_life hlife hfits
  rw [hphase] at hexpiry
  -- Both sides name the call that ends, and it decides the rest.
  have hdue : ∀ t, run.engine.ending move = some (t, false) →
      (run.engine.lapses now move = none ↔ now < run.since start + policy.closedWindow) := by
    intro t hending
    rw [lapses_eq_none_iff_of_ending hending, ← Bool.not_eq_true,
      Circuit.isDue_closed hphase hexpiry, Nat.not_le]
  have hcounters : ∀ t : Ticket, t.serial ∈ run.ledger.calls →
      (Circuit.shouldTrip policy (run.ledger.window.record false) = true ↔
        policy.minRequests ≤ (run.ledger.note (.ended t.serial false)).window.requests ∧
          policy.threshold.le (run.ledger.note (.ended t.serial false)).window.failureRate) := by
    intro t hcall
    rw [Ledger.window_ended false hcall, Circuit.shouldTrip, Bool.and_eq_true, decide_eq_true_eq]
  constructor
  · rintro ⟨hnone, t, hending, hcurrent, htrip⟩
    have hcall := (hreached.tracks.current t (took.ending_mem hending)).2 hcurrent
    exact ⟨(hdue t hending).1 hnone, t, hending, hcall, (hcounters t hcall).1 htrip⟩
  · rintro ⟨hsince, t, hending, hcall, htrip⟩
    have hcurrent := (hreached.tracks.current t (took.ending_mem hending)).1 hcall
    exact ⟨(hdue t hending).2 hsince, t, hending, hcurrent, (hcounters t hcall).2 htrip⟩

/-- A closed circuit opens at a move exactly when the move reports the failure
of a call of the current period before the period is over, and the window with
that failure has enough requests and enough failures among them.  The requests
are all calls admitted in the period, also those that have not ended.

So whenever it opens, every call that the window counts was admitted after the
last start of a generation, and as the clock never goes back, less than the
length of a window ago.  The start of a generation is noted for every window that
rolls over, every change of phase and every reset (`Took.began_mem_iff`,
`Stage.began_mem_of_reset`). -/
theorem trips_iff_of_life (hlife : life name policy audience start schedule = some run)
    (hfits : ∀ entry ∈ schedule, policy.Fits entry.1)
    (hstep : run.engine.step now move = some r) :
    ({ source := .closed, target := .opened } ∈
        Stage.changes { before := run.engine, now, move, response := r } ↔
      run.engine.circuit.phase = .closed ∧ now < run.since start + policy.closedWindow ∧
        ∃ t, run.engine.ending move = some (t, false) ∧ t.serial ∈ run.ledger.calls ∧
          policy.minRequests ≤ (run.ledger.note (.ended t.serial false)).window.requests ∧
          policy.threshold.le (run.ledger.note (.ended t.serial false)).window.failureRate) ∧
    ({ source := .closed, target := .opened } ∈
        Stage.changes { before := run.engine, now, move, response := r } →
      run.engine.circuit.window = run.ledger.window ∧
      ∀ n ∈ run.ledger.calls, ∃ before instant after,
        run.timeline = before ++ (instant, .admitted n) :: after ∧
          (∀ entry ∈ after, entry.2 ≠ .began) ∧
          (Chronological start schedule → now < instant + policy.closedWindow)) := by
  have hopens := opens_iff_failure hlife hfits hstep
  refine ⟨hopens, fun htrip => ⟨(reached_of_life hlife).tracks.window, ?_⟩⟩
  obtain ⟨-, hsince, -⟩ := hopens.1 htrip
  intro n hn
  obtain ⟨before, instant, after, htimeline, hafter, hadmitted⟩ := call_admitted hlife hn
  refine ⟨before, instant, after, htimeline, hafter, fun hclock => ?_⟩
  exact Nat.lt_of_lt_of_le hsince (Nat.add_le_add_right (hadmitted hclock) _)

/-- Two calls overlap: the first is in flight, and the failure of the second
opens the circuit at the last instant of the period.  An instant later it would
have been stale. -/
theorem trips_iff_of_life_overlapping :
    ∃ run ∈ life "db" { minRequests := 2, closedWindow := 10 } .client 0
        [(3, .call), (4, .suspend), (5, .call)],
      (∃ r ∈ run.engine.step 9 (.finish false),
        { source := .closed, target := .opened } ∈
          Stage.changes { before := run.engine, now := 9, move := .finish false, response := r }) ∧
      ∃ r ∈ run.engine.step 10 (.finish false),
        { source := .closed, target := .opened } ∉
          Stage.changes
            { before := run.engine, now := 10, move := .finish false, response := r } := by
  obtain ⟨run, hlife, hphase, hsince, hending, hcall, hcounters, ⟨r, hstep, -⟩, r', hstep', -⟩ :
      ∃ run ∈ life "db" { minRequests := 2, closedWindow := 10 } .client 0
          [(3, .call), (4, .suspend), (5, .call)],
        run.engine.circuit.phase = .closed ∧ run.since 0 = 0 ∧
          run.engine.ending (.finish false) = some (⟨1, 0⟩, false) ∧ 1 ∈ run.ledger.calls ∧
          Circuit.shouldTrip { minRequests := 2, closedWindow := 10 }
            (run.ledger.note (.ended 1 false)).window ∧
          (∃ r ∈ run.engine.step 9 (.finish false), True) ∧
          ∃ r ∈ run.engine.step 10 (.finish false), True := by
    decide +kernel
  have hfits : ∀ entry ∈ [((3 : Instant), Move.call), (4, .suspend), (5, .call)],
      Policy.Fits { minRequests := 2, closedWindow := 10 } entry.1 := by decide
  rw [Circuit.shouldTrip, Bool.and_eq_true, decide_eq_true_eq] at hcounters
  refine ⟨run, hlife, ⟨r, hstep, ?_⟩, r', hstep', ?_⟩
  · refine (trips_iff_of_life hlife hfits hstep).1.2 ⟨hphase, ?_, ⟨1, 0⟩, hending, hcall, hcounters⟩
    rw [hsince]
    decide
  · intro htrip
    obtain ⟨-, hearly, -⟩ := (trips_iff_of_life hlife hfits hstep').1.1 htrip
    rw [hsince] at hearly
    exact absurd hearly (by decide)

end

end Engine

end Breaker
