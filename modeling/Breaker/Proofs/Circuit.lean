import Breaker.Circuit
import Breaker.Settings.Fault

/-!
# How a circuit goes from period to period

`Circuit.evaluate`, `Circuit.settle` and `Circuit.reset` all end in one step:
the circuit either stays in its period or starts the next one.
`Circuit.turn` is that step, and `evaluate_eq_turn`, `settle_eq_turn` and
`reset_eq_turn` bring the three operations into its form.  What happens at the
start of a period is then said once:

* `circuit_turn_some`: the next generation begins, with an empty window, in
  the phase asked for;
* `turn_eq_done`: a complete step announces a change exactly when the phase
  is another one;
* `turn_ne_overflow`: the step is complete when the clock can hold the
  deadlines of the policy.

`Policy.Sound` and `Policy.Fits` are what later modules ask of a policy: that it
has passed validation, and that the clock can hold its deadlines.
-/

namespace Breaker

/-- The change to announce when the phase goes from `p` to `q`. -/
def Phase.change (p q : Phase) : Option Transition :=
  if p = q then none else some { source := p, target := q }

@[simp] theorem Phase.change_self (p : Phase) : p.change p = none := by
  simp [Phase.change]

theorem Phase.mem_change_iff {p q p' q' : Phase} :
    ({ source := p', target := q' } : Transition) ∈ (p.change q).toList ↔
      p = p' ∧ q = q' ∧ p ≠ q := by
  unfold Phase.change
  split
  · simp_all
  · simp_all [eq_comm]

/-- What validation promises of a policy, and what its fields can hold. -/
structure Policy.Sound (name : String) (policy : Policy) : Prop where
  faults_eq : policy.faults name = []
  probeLimit_le : policy.probeLimit ≤ Window.cap
  minRequests_le : policy.minRequests ≤ Window.cap

theorem Policy.Sound.probeLimit_pos {name : String} {policy : Policy}
    (h : policy.Sound name) : 0 < policy.probeLimit := by
  have hfaults := h.faults_eq
  rcases Nat.eq_zero_or_pos policy.probeLimit with hzero | hpos
  · simp [Policy.faults, hzero] at hfaults
  · exact hpos

/-- The clock can hold every deadline that a period started now would get. -/
def Policy.Fits (policy : Policy) (now : Instant) : Prop :=
  now + policy.closedWindow < Clock.horizon ∧ now + policy.openDuration < Clock.horizon

instance (policy : Policy) (now : Instant) : Decidable (policy.Fits now) :=
  inferInstanceAs (Decidable (_ ∧ _))

namespace Circuit

/-- The circuit that an operation leaves, complete or cut short. -/
def Outcome.circuit : Outcome → Circuit
  | .done c _ => c
  | .overflow c => c

/-- Stays in the period when `next` is `none`, and else starts the next
period in that phase. -/
def turn (policy : Policy) (now : Instant) (next : Option Phase) (c : Circuit) : Outcome :=
  match next with
  | none => .done c none
  | some phase => c.startPeriod policy now phase (c.phase.change phase)

/-- The phase of the period that time alone starts, if one is due. -/
def lapse (now : Instant) (c : Circuit) : Option Phase :=
  if c.isDue now then some (if c.phase = .closed then .closed else .halfOpen) else none

/-- The circuit with the outcome of a call written into its window. -/
def record (success : Bool) (c : Circuit) : Circuit :=
  { c with window := c.window.record success }

/-- The phase that an outcome leads to, once it is written into the window. -/
def verdict (policy : Policy) (success : Bool) (c : Circuit) : Option Phase :=
  match success, c.phase with
  | true, .halfOpen => if policy.probeLimit ≤ c.window.successRun then some .closed else none
  | false, .halfOpen => some .opened
  | false, .closed => if shouldTrip policy c.window then some .opened else none
  | _, _ => none

/-- A new circuit has a deadline that the clock can hold. -/
theorem fresh?_eq_some {policy : Policy} {now : Instant} {c : Circuit}
    (h : fresh? policy now = some c) :
    now + policy.closedWindow < Clock.horizon ∧
      c = { phase := .closed, generation := 0, window := {},
            expiry := some (now + policy.closedWindow) } := by
  unfold fresh? at h
  obtain ⟨deadline, hdeadline, rfl⟩ := Option.map_eq_some_iff.1 h
  unfold Clock.deadline? at hdeadline
  split at hdeadline <;> cases hdeadline
  exact ⟨by assumption, rfl⟩

theorem allow_eq_ok {policy : Policy} {c c' : Circuit} (h : c.allow policy = .ok c') :
    c' = { c with window := c.window.arrive } := by
  unfold allow at h
  split at h
  · cases h
  · split at h <;> cases h
    rfl
  · cases h
    rfl

/-! ## One form for three operations -/

theorem evaluate_eq_turn (policy : Policy) (now : Instant) (c : Circuit) :
    c.evaluate policy now = c.turn policy now (c.lapse now) := by
  unfold evaluate lapse
  cases hdue : c.isDue now with
  | false => rfl
  | true =>
    cases hphase : c.phase with
    | closed => simp [turn, hphase]
    | opened => simp [turn, moveTo, Phase.change, hphase]
    | halfOpen => simp [isDue, hphase] at hdue

theorem settle_eq_turn (policy : Policy) (now : Instant) (success : Bool) (c : Circuit) :
    c.settle policy now success =
      (c.record success).turn policy now ((c.record success).verdict policy success) := by
  cases success with
  | true =>
    cases hphase : c.phase <;>
      simp only [settle, succeed, record, verdict, Window.record, hphase, if_true, reduceCtorEq,
        false_and, true_and, if_false] <;> try rfl
    split
    · simp [turn, moveTo, Phase.change]
    · rfl
  | false =>
    cases hphase : c.phase <;>
      simp only [settle, fail, record, verdict, Window.record, hphase, Bool.false_eq_true,
        if_false] <;> try rfl
    split
    · simp [turn, moveTo, Phase.change]
    · rfl

theorem reset_eq_turn (policy : Policy) (now : Instant) (c : Circuit) :
    c.reset policy now = c.turn policy now (some .closed) := rfl

/-! ## The start of a period -/

@[simp] theorem turn_none (policy : Policy) (now : Instant) (c : Circuit) :
    c.turn policy now none = .done c none := rfl

/-- A period starts with the next generation and an empty window, also when
the clock cannot hold its deadline. -/
theorem circuit_turn_some (policy : Policy) (now : Instant) (phase : Phase) (c : Circuit) :
    (c.turn policy now (some phase)).circuit.phase = phase ∧
      (c.turn policy now (some phase)).circuit.generation = c.generation + 1 ∧
      (c.turn policy now (some phase)).circuit.window = {} := by
  unfold turn startPeriod
  simp only
  split
  · exact ⟨rfl, rfl, rfl⟩
  · split <;> exact ⟨rfl, rfl, rfl⟩

/-- What a complete step leaves, and what it announces. -/
theorem turn_eq_done {policy : Policy} {now : Instant} {next : Option Phase} {c c' : Circuit}
    {change : Option Transition} (h : c.turn policy now next = .done c' change) :
    change = c.phase.change c'.phase := by
  cases next with
  | none =>
    cases h
    exact (Phase.change_self c.phase).symm
  | some phase =>
    have hphase := (circuit_turn_some policy now phase c).1
    rw [h] at hphase
    change c'.phase = phase at hphase
    unfold turn startPeriod at h
    simp only at h
    rw [hphase]
    split at h
    · cases h
      rfl
    · split at h
      · cases h
        rfl
      · cases h

/-- A step is cut short only at the start of a period. -/
theorem turn_eq_overflow {policy : Policy} {now : Instant} {next : Option Phase} {c c' : Circuit}
    (h : c.turn policy now next = .overflow c') :
    c'.generation = c.generation + 1 ∧ c'.window = {} := by
  cases next with
  | none => cases h
  | some phase =>
    have hturn := (circuit_turn_some policy now phase c).2
    rw [h] at hturn
    exact hturn

theorem turn_ne_overflow {policy : Policy} {now : Instant} (hfits : policy.Fits now)
    (next : Option Phase) (c c' : Circuit) : c.turn policy now next ≠ .overflow c' := by
  obtain ⟨hclosed, hopen⟩ := hfits
  cases next with
  | none => simp
  | some phase =>
    cases phase <;>
      simp [turn, startPeriod, Policy.period, Clock.deadline?_eq_some hclosed,
        Clock.deadline?_eq_some hopen]

theorem evaluate_ne_overflow {policy : Policy} {now : Instant} (hfits : policy.Fits now)
    (c c' : Circuit) : c.evaluate policy now ≠ .overflow c' := by
  rw [evaluate_eq_turn]
  exact turn_ne_overflow hfits _ _ _

theorem settle_ne_overflow {policy : Policy} {now : Instant} (hfits : policy.Fits now)
    (success : Bool) (c c' : Circuit) : c.settle policy now success ≠ .overflow c' := by
  rw [settle_eq_turn]
  exact turn_ne_overflow hfits _ _ _

theorem reset_ne_overflow {policy : Policy} {now : Instant} (hfits : policy.Fits now)
    (c c' : Circuit) : c.reset policy now ≠ .overflow c' :=
  turn_ne_overflow hfits (some .closed) c c'

end Circuit

end Breaker
