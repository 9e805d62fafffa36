import Breaker.Proofs.Quiet
import Breaker.Telemetry
import Mathlib.Algebra.Ring.Nat

/-!
# What an operator sees

The built-in listener writes a line into the log and samples for the meters, and
only returns.  Whatever clients do with such a breaker, between two moves the
meters agree with the circuit: nothing is lost, counted twice or told out of
order, although all of it is told after the fact.

* `Telemetry.total` and `Telemetry.gauge?` are what a meter shows after a list
  of samples;
* `Stage.samples_eq` and `Stage.changeLogs_eq` are what one move puts out: its
  changes, and the refusal that it brings;
* `Run.Metered` is the agreement of the meters with the run, and
  `metered_of_life` says that it holds after every move.
-/

namespace Breaker

/-- The kind of the error that a reply brings, if it does. -/
def Reply.errorKind : Reply → Option String
  | .refused r => some r.label
  | .completed false => some "operation"
  | _ => none

@[simp] theorem Phase.label_inj {p q : Phase} : p.label = q.label ↔ p = q := by
  cases p <;> cases q <;> decide

namespace Telemetry

/-- The samples of one meter. -/
def ofMeter (kind : MetricKind) (metric : String) (labels : List (String × String))
    (samples : List Sample) : List Sample :=
  samples.filter fun s => s.kind = kind ∧ s.metric = metric ∧ s.labels = labels

/-- What a counter shows. -/
def total (metric : String) (labels : List (String × String)) (samples : List Sample) : Nat :=
  ((ofMeter .counter metric labels samples).map Sample.value).sum

/-- What a gauge shows, if it was ever set. -/
def gauge? (metric : String) (labels : List (String × String)) (samples : List Sample) :
    Option Nat :=
  ((ofMeter .gauge metric labels samples).map Sample.value).getLast?

/-- Is the line about a change of phase? -/
def isChange (line : LogRecord) : Bool := line.message = "Circuit breaker state changed"

section

variable (metric : String) (labels : List (String × String)) (name : String)

theorem total_append (a b : List Sample) :
    total metric labels (a ++ b) = total metric labels a + total metric labels b := by
  simp [total, ofMeter]

/-- The samples of several sources add up. -/
theorem total_flatMap {α : Type} (f : α → List Sample) (l : List α) :
    total metric labels (l.flatMap f) = (l.map fun a => total metric labels (f a)).sum := by
  induction l with
  | nil => rfl
  | cons a l ih => rw [List.flatMap_cons, total_append, ih, List.map_cons, List.sum_cons]

theorem total_flatMap_eq_zero {α : Type} {f : α → List Sample}
    (hf : ∀ a, total metric labels (f a) = 0) (l : List α) :
    total metric labels (l.flatMap f) = 0 := by
  induction l with
  | nil => rfl
  | cons a l ih => rw [List.flatMap_cons, total_append, hf, ih]

theorem sum_map_ite_eq {α : Type} [DecidableEq α] (a : α) (l : List α) :
    (l.map fun x => if x = a then 1 else 0).sum = l.count a := by
  induction l with
  | nil => rfl
  | cons x l ih =>
    rw [List.map_cons, List.sum_cons, ih, List.count_cons, Nat.add_comm]
    simp

theorem gauge?_append (a b : List Sample) :
    gauge? metric labels (a ++ b) = (gauge? metric labels b).or (gauge? metric labels a) := by
  simp [gauge?, ofMeter]

/-! ### One entry -/

theorem total_transitions_told (p q : Phase) (t : Transition) :
    total transitionsTotal [("breaker", name), ("from", p.label), ("to", q.label)]
        (metrics name .telemetry (.told t)) =
      if t = { source := p, target := q } then 1 else 0 := by
  cases t with
  | mk source target =>
    by_cases h : source = p ∧ target = q
    · simp [total, ofMeter, metrics, h]
    · simp [total, ofMeter, metrics, h]

theorem total_transitions_refused (p q : Phase) (r : Refusal) :
    total transitionsTotal [("breaker", name), ("from", p.label), ("to", q.label)]
      (metrics name .telemetry (.refused r)) = 0 := by
  simp [total, ofMeter, metrics, transitionsTotal, rejectionsTotal]

theorem total_rejections_told (reason : String) (t : Transition) :
    total rejectionsTotal [("breaker", name), ("reason", reason)]
      (metrics name .telemetry (.told t)) = 0 := by
  simp [total, ofMeter, metrics, transitionsTotal, rejectionsTotal]

theorem total_rejections_refused (reason : String) (r : Refusal) :
    total rejectionsTotal [("breaker", name), ("reason", reason)]
        (metrics name .telemetry (.refused r)) =
      if r.label = reason then 1 else 0 := by
  by_cases h : r.label = reason
  · simp [total, ofMeter, metrics, h]
  · simp [total, ofMeter, metrics, h]

theorem gauge?_told (t : Transition) :
    gauge? stateGauge [("breaker", name)] (metrics name .telemetry (.told t)) =
      some t.target.level := by
  simp [gauge?, ofMeter, metrics]

theorem gauge?_changes (ts : List Transition) :
    gauge? stateGauge [("breaker", name)]
        (ts.flatMap fun t => metrics name .telemetry (.told t)) =
      ts.getLast?.map fun t => t.target.level := by
  induction ts using List.reverseRecOn with
  | nil => rfl
  | append_singleton ts t ih =>
    rw [List.flatMap_append, gauge?_append, List.flatMap_singleton, gauge?_told]
    simp

theorem gauge?_refusals (rs : List Refusal) :
    gauge? stateGauge [("breaker", name)]
      (rs.flatMap fun r => metrics name .telemetry (.refused r)) = none := by
  induction rs with
  | nil => rfl
  | cons r rs ih =>
    rw [List.flatMap_cons, gauge?_append, ih]
    simp [gauge?, ofMeter, metrics]

end

end Telemetry

namespace Engine

/-- The samples that a move puts out. -/
def Stage.samples (s : Stage) : List Sample :=
  s.response.journal.flatMap (Telemetry.metrics s.before.name s.before.audience)

/-- The lines that a move writes into the log. -/
def Stage.logs (s : Stage) : List LogRecord :=
  s.response.journal.flatMap (Telemetry.logs s.before.name s.before.audience)

/-- All samples of a run, in order. -/
def Run.samples (run : Run) : List Sample := run.stages.flatMap Stage.samples

/-- The whole log of a run. -/
def Run.logs (run : Run) : List LogRecord := run.stages.flatMap Stage.logs

/-- The move brings back a call with an error of the given kind, and is not the
end of its operation. -/
def Stage.turnsAway (reason : String) (s : Stage) : Bool :=
  s.response.reply.errorKind = some reason ∧ s.before.ending s.move = none

/-! ## One move -/

/-- What looks at nothing but what left the library. -/
theorem flatMap_outward {α : Type} {f : Entry → List α}
    (hf : ∀ entry, entry.isOutward = false → f entry = []) (journal : List Entry) :
    journal.flatMap f = (journal.filter Entry.isOutward).flatMap f := by
  induction journal with
  | nil => rfl
  | cons entry journal ih =>
    cases hentry : entry.isOutward with
    | true => rw [List.filter_cons_of_pos hentry, List.flatMap_cons, List.flatMap_cons, ih]
    | false =>
      rw [List.filter_cons_of_neg (by simp [hentry]), List.flatMap_cons, hf entry hentry,
        List.nil_append, ih]

theorem metrics_inward (name : String) (audience : Audience) (entry : Entry)
    (h : entry.isOutward = false) : Telemetry.metrics name audience entry = [] := by
  cases entry <;> first | rfl | cases h

/-- A move puts out the samples of its changes, and then of its refusal. -/
theorem Stage.Quietly.samples_eq {s : Stage} (h : s.Quietly) :
    s.samples =
      s.changes.flatMap (fun t => Telemetry.metrics s.before.name s.before.audience (.told t)) ++
        s.response.reply.refusals.flatMap fun r =>
          Telemetry.metrics s.before.name s.before.audience (.refused r) := by
  rw [Stage.samples, flatMap_outward (metrics_inward _ _), h.outward, List.flatMap_append,
    List.flatMap_map, List.flatMap_map]

theorem filter_logs_told (name : String) (t : Transition) :
    (Telemetry.logs name .telemetry (.told t)).filter Telemetry.isChange =
      [Telemetry.changed name t] := by
  simp [Telemetry.logs, Telemetry.isChange, Telemetry.changed, Telemetry.about]

theorem filter_logs_refused (name : String) (r : Refusal) :
    (Telemetry.logs name .telemetry (.refused r)).filter Telemetry.isChange = [] := by
  simp [Telemetry.logs, Telemetry.isChange, Telemetry.about]

theorem filter_logs_inward (name : String) (audience : Audience) (entry : Entry)
    (h : entry.isOutward = false) :
    (Telemetry.logs name audience entry).filter Telemetry.isChange = [] := by
  cases entry with
  | told t => cases h
  | refused r => cases h
  | cutShort unwinding =>
    cases unwinding <;> simp [Telemetry.logs, Telemetry.isChange, Telemetry.about]
  | _ => simp [Telemetry.logs, Telemetry.isChange, Telemetry.about]

/-- A move writes one line about each of its changes. -/
theorem Stage.Quietly.changeLogs_eq {s : Stage} (h : s.Quietly)
    (haudience : s.before.audience = .telemetry) :
    s.logs.filter Telemetry.isChange = s.changes.map (Telemetry.changed s.before.name) := by
  rw [Stage.logs, List.filter_flatMap, flatMap_outward (filter_logs_inward _ _), h.outward,
    List.flatMap_append, List.flatMap_map, List.flatMap_map, haudience]
  simp only [filter_logs_told, filter_logs_refused]
  rw [List.flatMap_eq_nil_iff.2 fun _ _ => rfl, List.append_nil, List.map_eq_flatMap]

/-- The counter of a change counts it. -/
theorem Stage.Quietly.total_transitions {s : Stage} (h : s.Quietly)
    (haudience : s.before.audience = .telemetry) (p q : Phase) :
    Telemetry.total Telemetry.transitionsTotal
        [("breaker", s.before.name), ("from", p.label), ("to", q.label)] s.samples =
      s.changes.count { source := p, target := q } := by
  rw [h.samples_eq, Telemetry.total_append, haudience, Telemetry.total_flatMap,
    Telemetry.total_flatMap_eq_zero _ _ (Telemetry.total_transitions_refused _ p q), Nat.add_zero]
  simp only [Telemetry.total_transitions_told]
  exact Telemetry.sum_map_ite_eq _ _

/-- The gauge shows the last change. -/
theorem Stage.Quietly.gauge?_eq {s : Stage} (h : s.Quietly)
    (haudience : s.before.audience = .telemetry) :
    Telemetry.gauge? Telemetry.stateGauge [("breaker", s.before.name)] s.samples =
      s.changes.getLast?.map fun t => t.target.level := by
  rw [h.samples_eq, Telemetry.gauge?_append, haudience, Telemetry.gauge?_refusals, Option.none_or,
    Telemetry.gauge?_changes]

/-- A refusal is what turns a call away. -/
theorem Stage.Quietly.sum_refusals {s : Stage} (h : s.Quietly) (reason : String) :
    (s.response.reply.refusals.map fun r => if r.label = reason then 1 else 0).sum =
      (s.turnsAway reason).toNat := by
  have hreturns := h.returns
  have hfinishes := h.finishes
  rw [Stage.turnsAway]
  generalize s.response.reply = reply at hreturns ⊢
  generalize s.move = move at hreturns hfinishes ⊢
  cases hreturns with
  | refused r =>
    by_cases hreason : r.label = reason <;>
      simp [Reply.refusals, Reply.errorKind, ending, hreason]
  | finish success =>
    obtain ⟨t, hending⟩ := hfinishes success rfl
    simp [Reply.refusals, hending]
  | _ => simp [Reply.refusals, Reply.errorKind]

/-- The counter of refusals counts the calls that are turned away, by the kind of
their errors. -/
theorem Stage.Quietly.total_rejections {s : Stage} (h : s.Quietly)
    (haudience : s.before.audience = .telemetry) (reason : String) :
    Telemetry.total Telemetry.rejectionsTotal
        [("breaker", s.before.name), ("reason", reason)] s.samples =
      (s.turnsAway reason).toNat := by
  rw [h.samples_eq, Telemetry.total_append, haudience,
    Telemetry.total_flatMap_eq_zero _ _ (Telemetry.total_rejections_told _ reason), Nat.zero_add,
    Telemetry.total_flatMap]
  simp only [Telemetry.total_rejections_refused]
  exact h.sum_refusals reason

/-! ## Runs -/

/-- The end of a path is the target of its last change. -/
theorem path_end {p q : Phase} {ts : List Transition} (h : Path p ts q) :
    q = (ts.getLast?.map Transition.target).getD p := by
  induction ts generalizing p with
  | nil => exact h.symm
  | cons t ts ih =>
    rw [ih h.2, List.getLast?_cons]
    cases ts.getLast? <;> rfl

/-- The counters and the log of the breaker `name` agree with its run. -/
structure Run.Tallied (name : String) (run : Run) : Prop where
  /-- Each kind of change is counted as often as the circuit has made it. -/
  transitions : ∀ p q : Phase,
    Telemetry.total Telemetry.transitionsTotal
        [("breaker", name), ("from", p.label), ("to", q.label)] run.samples =
      run.changes.count { source := p, target := q }
  /-- Refusals are counted by the kind of the error, and each is that of a call
  whose operation never ran. -/
  rejections : ∀ reason : String,
    Telemetry.total Telemetry.rejectionsTotal [("breaker", name), ("reason", reason)]
        run.samples =
      run.stages.countP (Stage.turnsAway reason)
  /-- There is one line about each change, in order, and opening is a warning. -/
  lines : run.logs.filter Telemetry.isChange = run.changes.map fun t =>
    { level := if t.target = .opened then .warn else .info
      message := "Circuit breaker state changed"
      fields := [("breaker", .text name), ("from", .text t.source.label),
        ("to", .text t.target.label)] }

/-- All meters of the breaker `name` agree with its run, and so does the log. -/
structure Run.Metered (name : String) (run : Run) : Prop extends run.Tallied name where
  /-- The gauge shows the phase, -/
  state_set : ∀ v ∈ Telemetry.gauge? Telemetry.stateGauge [("breaker", name)] run.samples,
    v = run.engine.circuit.phase.level
  /-- and as long as it was never set, the circuit is closed as it was built. -/
  state_unset : Telemetry.gauge? Telemetry.stateGauge [("breaker", name)] run.samples = none →
    run.engine.circuit.phase = .closed ∧ run.changes = []

theorem Run.samples_snoc (run : Run) (s : Stage) :
    (run.snoc s).samples = run.samples ++ s.samples := by
  simp [Run.samples, Run.snoc, List.flatMap_append]

theorem Run.logs_snoc (run : Run) (s : Stage) : (run.snoc s).logs = run.logs ++ s.logs := by
  simp [Run.logs, Run.snoc, List.flatMap_append]

section

variable {name : String} {policy : Policy} {start : Instant}
variable {schedule : List (Instant × Move)} {run : Run}

/-- The changes of a run lead from the closed circuit to the phase it has now,
and the gauge shows the last of them. -/
structure Run.Gauged (name : String) (run : Run) : Prop where
  path : Path .closed run.changes run.engine.circuit.phase
  gauge_eq : Telemetry.gauge? Telemetry.stateGauge [("breaker", name)] run.samples =
    run.changes.getLast?.map fun t => t.target.level

theorem Run.Gauged.snoc {s : Stage} (h : run.Gauged name) (hbefore : run.engine = s.before)
    (hresting : Resting name policy .telemetry s.before) (hs : s.Quietly) :
    (run.snoc s).Gauged name where
  path := by
    rw [Run.changes_snoc]
    exact (hbefore ▸ h.path).append s.path_changes
  gauge_eq := by
    rw [Run.samples_snoc, Telemetry.gauge?_append, ← hresting.name_eq,
      hs.gauge?_eq hresting.audience_eq, hresting.name_eq, h.gauge_eq, Run.changes_snoc,
      List.getLast?_append]
    cases s.changes.getLast? <;> rfl

theorem Run.Tallied.snoc {s : Stage} (h : run.Tallied name)
    (hresting : Resting name policy .telemetry s.before) (hs : s.Quietly) :
    (run.snoc s).Tallied name where
  transitions p q := by
    rw [Run.samples_snoc, Telemetry.total_append, h.transitions, ← hresting.name_eq,
      hs.total_transitions hresting.audience_eq, Run.changes_snoc, List.count_append]
  rejections reason := by
    rw [Run.samples_snoc, Telemetry.total_append, h.rejections, ← hresting.name_eq,
      hs.total_rejections hresting.audience_eq, Run.snoc, List.countP_append,
      List.countP_singleton]
    cases s.turnsAway reason <;> rfl
  lines := by
    rw [Run.logs_snoc, List.filter_append, h.lines, hs.changeLogs_eq hresting.audience_eq,
      hresting.name_eq, Run.changes_snoc, List.map_append]
    rfl

theorem Run.Gauged.metered (h : run.Gauged name) (htallied : run.Tallied name) :
    run.Metered name where
  toTallied := htallied
  state_set v hv := by
    rw [h.gauge_eq] at hv
    obtain ⟨t, hlast, rfl⟩ := Option.map_eq_some_iff.1 hv
    rw [path_end h.path, hlast]
    rfl
  state_unset hunset := by
    rw [h.gauge_eq, Option.map_eq_none_iff] at hunset
    refine ⟨?_, List.getLast?_eq_none_iff.1 hunset⟩
    rw [path_end h.path, hunset]
    rfl

/-- The meters are faithful.  Whatever clients do with a breaker whose listener is
the built-in one, after every move the counters of changes and of refusals, the
gauge and the log agree with what the circuit has done and with what its callers
were answered. -/
theorem metered_of_life (hfits : ∀ entry ∈ schedule, policy.Fits entry.1)
    (hlife : lifeQuiet name policy .telemetry start schedule = some run) : run.Metered name := by
  have hboth := lifeQuiet_induction (motive := fun run => run.Gauged name ∧ run.Tallied name)
    ?first ?next hfits hlife
  case first =>
    intro e hnew
    refine ⟨⟨(new?_eq_some hnew).2.2.2.2.1.symm, rfl⟩, ?_⟩
    exact { transitions := fun _ _ => rfl, rejections := fun _ => rfl, lines := rfl }
  case next =>
    rintro run s ⟨hgauged, htallied⟩ hbefore hresting hs
    exact ⟨hgauged.snoc hbefore hresting hs, htallied.snoc hresting hs⟩
  obtain ⟨-, hgauged, htallied⟩ := hboth
  exact hgauged.metered htallied

/-- A failure opens the circuit, two calls are refused, and a probe closes it
again, all while a first call goes on running. -/
theorem metered_of_life_probed :
    (∀ entry ∈ [((0 : Instant), Move.call), (0, .call), (0, .finish false), (1, .call), (2, .call),
        (10, .call), (11, .finish true)],
      Policy.Fits { minRequests := 1, openDuration := 10, probeLimit := 1 } entry.1) ∧
    ∃ run ∈ lifeQuiet "db" { minRequests := 1, openDuration := 10, probeLimit := 1 } .telemetry 0
        [(0, .call), (0, .call), (0, .finish false), (1, .call), (2, .call), (10, .call),
          (11, .finish true)],
      run.Metered "db" ∧
        run.changes = [⟨.closed, .opened⟩, ⟨.opened, .halfOpen⟩, ⟨.halfOpen, .closed⟩] ∧
        Telemetry.total Telemetry.rejectionsTotal [("breaker", "db"), ("reason", "open")]
          run.samples = 2 := by
  have hfits : ∀ entry ∈ [((0 : Instant), Move.call), (0, .call), (0, .finish false), (1, .call),
      (2, .call), (10, .call), (11, .finish true)],
      Policy.Fits { minRequests := 1, openDuration := 10, probeLimit := 1 } entry.1 := by decide
  obtain ⟨run, hlife, hchanges, hturned⟩ :
      ∃ run ∈ lifeQuiet "db" { minRequests := 1, openDuration := 10, probeLimit := 1 } .telemetry 0
          [(0, .call), (0, .call), (0, .finish false), (1, .call), (2, .call), (10, .call),
            (11, .finish true)],
        run.changes = [⟨.closed, .opened⟩, ⟨.opened, .halfOpen⟩, ⟨.halfOpen, .closed⟩] ∧
          run.stages.countP (Stage.turnsAway "open") = 2 := by
    decide +kernel
  have hmetered := metered_of_life hfits hlife
  exact ⟨hfits, run, hlife, hmetered, hchanges, (hmetered.rejections "open").trans hturned⟩

end

end Engine

end Breaker
