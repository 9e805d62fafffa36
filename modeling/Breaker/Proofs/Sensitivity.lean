import Breaker.Proofs.Quiet

/-!
# Policies that trip sooner

A policy can be made more sensitive in two fields: it may want fewer calls before
it trips, and a smaller share of failures among them.  Of all that is done with a
breaker, only the failure of a call in a closed circuit reads either field.  So a
breaker under a stricter policy does the same as one under the milder policy,
until it trips; and the milder one has not tripped by then.

* `Policy.Stricter` is the order, and `shouldTrip_of_stricter` what it is for.
* `Circuit.settle_cases`: the one place where the two breakers may part.
* `Engine.under` puts a breaker under another policy.  `step_under` says that
  this commutes with every move that does not trip, and `lifeQuiet_under` says so
  of whole runs.
* `stricter_trips_first` is the result.
-/

namespace Breaker

/-- The order of the values is transitive. -/
theorem Binary64.le_trans {a b c : Binary64} (hab : a.le b = true) (hbc : b.le c = true) :
    a.le c = true := by
  cases b with
  | nan => cases hbc
  | infinity negative =>
    -- Nothing is beyond an infinity but itself.
    cases negative with
    | true => rcases a with _ | (_ | _) | _ <;> first | exact hbc | cases hab
    | false => rcases c with _ | (_ | _) | _ <;> first | exact hab | cases hbc
  | finite m j =>
    rcases a with _ | (_ | _) | ⟨n, i⟩ <;> rcases c with _ | (_ | _) | ⟨l, k⟩ <;>
      first
      | rfl
      | exact absurd hab Bool.false_ne_true
      | exact absurd hbc Bool.false_ne_true
      | exact decide_eq_true (Int.le_trans (of_decide_eq_true hab) (of_decide_eq_true hbc))

/-- Two policies that are equal but for the test whether to trip: whenever the
second trips, so does the first. -/
structure Policy.Stricter (policy milder : Policy) : Prop where
  probeLimit_eq : milder.probeLimit = policy.probeLimit
  closedWindow_eq : milder.closedWindow = policy.closedWindow
  openDuration_eq : milder.openDuration = policy.openDuration
  minRequests_le : policy.minRequests ≤ milder.minRequests
  threshold_le : policy.threshold.le milder.threshold = true

namespace Circuit

variable {policy milder : Policy} {now : Instant} {success : Bool} {c c' : Circuit}
variable {change : Option Transition}

theorem shouldTrip_of_stricter (h : policy.Stricter milder) {w : Window}
    (htrip : shouldTrip milder w = true) : shouldTrip policy w = true := by
  rw [shouldTrip, Bool.and_eq_true, decide_eq_true_eq] at htrip ⊢
  obtain ⟨hrequests, hrate⟩ := htrip
  exact ⟨Nat.le_trans h.minRequests_le hrequests, Binary64.le_trans h.threshold_le hrate⟩

/-- Periods are equally long. -/
theorem turn_of_stricter (h : policy.Stricter milder) (now : Instant) (next : Option Phase)
    (c : Circuit) : c.turn milder now next = c.turn policy now next := by
  cases next with
  | none => rfl
  | some phase =>
    have hperiod : milder.period phase = policy.period phase := by
      cases phase <;> simp [Policy.period, h.closedWindow_eq, h.openDuration_eq]
    rw [turn, turn, startPeriod, startPeriod, hperiod]

theorem evaluate_of_stricter (h : policy.Stricter milder) (now : Instant) (c : Circuit) :
    c.evaluate milder now = c.evaluate policy now := by
  rw [evaluate_eq_turn, evaluate_eq_turn, turn_of_stricter h]

theorem reset_of_stricter (h : policy.Stricter milder) (now : Instant) (c : Circuit) :
    c.reset milder now = c.reset policy now := by
  rw [reset_eq_turn, reset_eq_turn, turn_of_stricter h]

theorem allow_of_stricter (h : policy.Stricter milder) (c : Circuit) :
    c.allow milder = c.allow policy := by
  rw [allow, allow, h.probeLimit_eq]

theorem verdict_cases (h : policy.Stricter milder) (success : Bool) (c : Circuit) :
    c.verdict milder success = c.verdict policy success ∨
      c.phase = .closed ∧ c.verdict policy success = some .opened := by
  cases hphase : c.phase with
  | opened => exact .inl (by cases success <;> simp only [verdict, hphase])
  | halfOpen => exact .inl (by cases success <;> simp only [verdict, hphase, h.probeLimit_eq])
  | closed =>
    cases success with
    | true => exact .inl (by simp only [verdict, hphase])
    | false =>
      by_cases htrip : shouldTrip policy c.window = true
      · exact .inr ⟨rfl, by simp only [verdict, hphase, if_pos htrip]⟩
      · have hmilder := mt (shouldTrip_of_stricter h) htrip
        exact .inl (by simp only [verdict, hphase, if_neg htrip, if_neg hmilder])

/-- The end of a call does the same under both policies, if it does not open the
closed circuit under the stricter one. -/
theorem settle_cases (h : policy.Stricter milder)
    (hsettle : c.settle policy now success = .done c' change) :
    c.settle milder now success = .done c' change ∨ c.phase = .closed ∧ c'.phase = .opened := by
  rw [settle_eq_turn] at hsettle
  rcases verdict_cases h success (c.record success) with hsame | ⟨hclosed, hopened⟩
  · left
    rw [settle_eq_turn, turn_of_stricter h, hsame, hsettle]
  · right
    have hphase := (circuit_turn_some policy now .opened (c.record success)).1
    rw [← hopened, hsettle] at hphase
    exact ⟨hclosed, hphase⟩

end Circuit

namespace Engine

variable {e e' : Engine} {now : Instant} {move : Move} {sequel : Sequel} {milder : Policy}
variable {r : Response}

/-! ## Under another policy -/

/-- The breaker under another policy, and else as it is. -/
def under (e : Engine) (policy : Policy) : Engine := { e with policy }

/-- The response with the breaker under another policy. -/
def Response.under (r : Response) (policy : Policy) : Response :=
  { r with engine := r.engine.under policy }

/-- The stage with the breaker under another policy: the same move at the same
instant with the same reply and the same journal. -/
def Stage.under (s : Stage) (policy : Policy) : Stage :=
  { s with before := s.before.under policy, response := s.response.under policy }

/-- The run with the breaker under another policy in all its stages. -/
def Run.under (run : Run) (policy : Policy) : Run :=
  { stages := run.stages.map (·.under policy), engine := run.engine.under policy }

/-- The closed circuit opens in the stage. -/
def Stage.Trips (s : Stage) : Prop := { source := .closed, target := .opened } ∈ s.changes

instance (s : Stage) : Decidable s.Trips := inferInstanceAs (Decidable (_ ∈ s.changes))

theorem Run.under_snoc (run : Run) (s : Stage) (policy : Policy) :
    (run.snoc s).under policy = (run.under policy).snoc (s.under policy) := by
  simp [Run.snoc, Run.under, Stage.under, Response.under]

theorem conclude_under (e : Engine) (policy : Policy) (sequel : Sequel) (journal : List Entry) :
    (e.under policy).conclude sequel journal = (e.conclude sequel journal).under policy := by
  cases sequel <;> rfl

theorem follow_under (e : Engine) (policy : Policy) (sequel : Sequel) (journal : List Entry)
    (met : Courier × Mailbox) :
    (e.under policy).follow sequel journal met = (e.follow sequel journal met).under policy := by
  obtain ⟨courier, mailbox⟩ := met
  cases courier with
  | telling t => rfl
  | seeking | holding | releasing | checking | gone =>
    exact conclude_under { e with mailbox } policy sequel journal

theorem deliver_under (e : Engine) (policy : Policy) (sequel : Sequel) (journal : List Entry) :
    (e.under policy).deliver sequel journal = (e.deliver sequel journal).under policy :=
  follow_under e policy sequel journal _

theorem heard_under (e : Engine) (policy : Policy) (now : Instant) :
    (e.under policy).step now .heard = (e.step now .heard).map (·.under policy) := by
  simp only [step, under]
  split
  next t sequel frames hframes =>
    exact congrArg some (follow_under { e with frames } policy sequel [] _)
  · rfl

theorem settleQuiet_under (policy : Policy) (fuel : Nat) (r : Response) :
    (r.under policy).settleQuiet now fuel = (r.settleQuiet now fuel).under policy := by
  induction fuel generalizing r with
  | zero => rfl
  | succ fuel ih =>
    have hheard := heard_under r.engine policy now
    rw [Response.settleQuiet, Response.settleQuiet]
    simp only [Response.under, hheard]
    cases hstep : r.engine.step now .heard with
    | none =>
      rw [Option.map_none]
      split <;> rfl
    | some next =>
      rw [Option.map_some]
      split
      · exact ih { next with journal := r.journal ++ next.journal }
      · rfl

/-! ## One move -/

/-- Either the end of a call is the same under both policies, or the closed
circuit opens under the stricter one. -/
theorem report_under (h : e.policy.Stricter milder) (hfits : e.policy.Fits now) (t : Ticket)
    (success : Bool) (sequel : Sequel) (journal : List Entry) :
    (e.under milder).report now t success sequel journal =
        (e.report now t success sequel journal).map (·.under milder) ∨
      ∃ (e' : Engine) (more : List Entry),
        e.report now t success sequel journal = some (e'.deliver sequel more) ∧
        (e.circuit.evaluate e.policy now).circuit.phase = .closed ∧
        e'.circuit.phase = .opened := by
  cases heval : e.circuit.evaluate e.policy now with
  | overflow c => exact absurd heval (Circuit.evaluate_ne_overflow hfits _ _)
  | done c change =>
    have heval' : (e.under milder).circuit.evaluate milder now = .done c change :=
      (Circuit.evaluate_of_stricter h now e.circuit).trans heval
    by_cases hcurrent : t.generation = c.generation
    · cases hsettle : c.settle e.policy now success with
      | overflow c' => exact absurd hsettle (Circuit.settle_ne_overflow hfits _ _ _)
      | done c' change' =>
        have hreport : e.report now t success sequel journal = _ :=
          report_of_current journal heval hcurrent hsettle
        rcases Circuit.settle_cases h hsettle with hsettle' | ⟨hclosed, hopened⟩
        · left
          rw [hreport, Option.map_some, ← deliver_under]
          exact report_of_current (e := e.under milder) journal heval' hcurrent hsettle'
        · exact .inr ⟨_, _, hreport, hclosed, hopened⟩
    · left
      rw [report_of_stale journal heval hcurrent, Option.map_some, ← deliver_under]
      exact report_of_stale (e := e.under milder) journal heval' hcurrent

/-- The move trips the breaker. -/
def TripsBy (e : Engine) (now : Instant) (move : Move) : Prop :=
  ∃ r, e.step now move = some r ∧ Stage.Trips { before := e, now, move, response := r }

theorem Ends.under {t : Ticket} {success : Bool} (hends : e.Ends move t success e' sequel)
    (policy : Policy) : (e.under policy).Ends move t success (e'.under policy) sequel := by
  cases hends with
  | finish success hframes => exact .finish success hframes
  | panic text hframes => exact .panic text hframes
  | abandon hmem => exact .abandon hmem

theorem ends_under {t : Ticket} {success : Bool} (h : e.policy.Stricter milder)
    (hfits : e.policy.Fits now) (hends : e.Ends move t success e' sequel) :
    (e.under milder).step now move = (e.step now move).map (·.under milder) ∨
      e.TripsBy now move := by
  have hcircuit : e'.circuit = e.circuit := by cases hends <;> rfl
  have hpolicy := hends.policy_eq
  have hnote : (e.under milder).cutNote move = e.cutNote move := by cases move <;> rfl
  rw [(hends.under milder).step_eq, hends.step_eq, hnote]
  rcases report_under (hpolicy ▸ h) (hpolicy ▸ hfits) t success sequel (e.cutNote move) with
    hsame | ⟨e'', more, hreport, hclosed, hopened⟩
  · exact .inl hsame
  · right
    rw [hcircuit, hpolicy] at hclosed
    refine ⟨_, (hends.step_eq now).trans hreport, List.mem_append_right _ ?_⟩
    rw [Phase.mem_change_iff, hends.evaluated_eq rfl, (deliver_keeps _ _ _).1]
    refine ⟨hclosed, hopened, ?_⟩
    rw [hclosed, hopened]
    exact Phase.noConfusion

theorem query_under (h : e.policy.Stricter milder) (hfits : e.policy.Fits now) :
    (e.under milder).query now = (e.query now).under milder := by
  cases heval : e.circuit.evaluate e.policy now with
  | overflow c => exact absurd heval (Circuit.evaluate_ne_overflow hfits _ _)
  | done c change =>
    rw [query_of_done heval, ← deliver_under]
    exact query_of_done ((Circuit.evaluate_of_stricter h now e.circuit).trans heval)

theorem reset_under (h : e.policy.Stricter milder) (hfits : e.policy.Fits now) :
    (e.under milder).reset now = (e.reset now).under milder := by
  cases hreset : e.circuit.reset e.policy now with
  | overflow c => exact absurd hreset (Circuit.reset_ne_overflow hfits _ _)
  | done c change =>
    rw [reset_of_done hreset, ← deliver_under]
    exact reset_of_done ((Circuit.reset_of_stricter h now e.circuit).trans hreset)

theorem call_under (h : e.policy.Stricter milder) (hfits : e.policy.Fits now) :
    (e.under milder).call now = (e.call now).under milder := by
  cases heval : e.circuit.evaluate e.policy now with
  | overflow c => exact absurd heval (Circuit.evaluate_ne_overflow hfits _ _)
  | done c change =>
    have heval' : (e.under milder).circuit.evaluate milder now = .done c change :=
      (Circuit.evaluate_of_stricter h now e.circuit).trans heval
    cases hallow : c.allow e.policy with
    | error refusal =>
      rw [call_of_error heval hallow, ← deliver_under]
      exact call_of_error heval' ((Circuit.allow_of_stricter h c).trans hallow)
    | ok c' =>
      rw [call_of_ok heval hallow, ← deliver_under]
      exact call_of_ok heval' ((Circuit.allow_of_stricter h c).trans hallow)

/-- Every move does the same under both policies, unless it trips the breaker. -/
theorem step_under (h : e.policy.Stricter milder) (hfits : e.policy.Fits now) (move : Move) :
    (e.under milder).step now move = (e.step now move).map (·.under milder) ∨
      e.TripsBy now move := by
  cases move with
  | query => exact .inl (congrArg some (query_under h hfits))
  | reset => exact .inl (congrArg some (reset_under h hfits))
  | call => exact .inl (congrArg some (call_under h hfits))
  | heard => exact .inl (heard_under e milder now)
  | resume t =>
    left
    by_cases hmem : t ∈ e.suspended <;> simp [step, under, Response.under, hmem]
  | suspend =>
    left
    simp only [step, under]
    split <;> rfl
  | abandon t =>
    by_cases hmem : t ∈ e.suspended
    · exact ends_under h hfits (.abandon hmem)
    · left
      simp [step, under, hmem]
  | finish success =>
    cases hframes : e.frames with
    | nil => exact .inl (by simp [step, under, hframes])
    | cons frame frames =>
      cases frame with
      | operating t => exact ends_under h hfits (.finish success hframes)
      | listening t sequel => exact .inl (by simp [step, under, hframes])
  | panic text =>
    cases hframes : e.frames with
    | nil => exact .inl (by simp [step, under, hframes])
    | cons frame frames =>
      cases frame with
      | operating t => exact ends_under h hfits (.panic text hframes)
      | listening t sequel =>
        left
        have hunwinding : (e.under milder).isUnwinding = e.isUnwinding := rfl
        simp only [step, hframes, hunwinding, show (e.under milder).frames = _ from hframes]
        split <;> rfl

/-- So does every move with all deliveries that it leads to. -/
theorem stepQuiet_under (h : e.policy.Stricter milder) (hfits : e.policy.Fits now)
    (move : Move) :
    (e.under milder).stepQuiet now move = (e.stepQuiet now move).map (·.under milder) ∨
      ∃ r, e.stepQuiet now move = some r ∧
        Stage.Trips { before := e, now, move, response := r } := by
  rcases step_under h hfits move with hsame | ⟨r, hstep, htrips⟩
  · left
    rw [stepQuiet, stepQuiet, hsame, Option.map_map, Option.map_map]
    congr 1
    funext r
    exact settleQuiet_under milder _ r
  · right
    refine ⟨_, by rw [stepQuiet, hstep, Option.map_some], ?_⟩
    rw [Stage.Trips, Stage.changes, circuit_settleQuiet]
    exact htrips

theorem evaluated_under (h : e.policy.Stricter milder) (now : Instant) (move : Move) :
    (e.under milder).evaluated now move = e.evaluated now move := by
  have heval := Circuit.evaluate_of_stricter h now e.circuit
  simp only [evaluated, under, heval]
  rfl

/-- Whether a stage trips is the same under both policies. -/
theorem Stage.trips_under {s : Stage} (h : s.before.policy.Stricter milder) :
    (s.under milder).Trips ↔ s.Trips := by
  simp only [Trips, changes, Stage.under, evaluated_under h]
  rfl

/-! ## Runs -/

section

variable {name : String} {policy : Policy} {audience : Audience} {start : Instant}
variable {schedule : List (Instant × Move)} {run : Run}

/-- The schedule makes a run, and its last move trips the breaker. -/
def TripsAt (name : String) (policy : Policy) (audience : Audience) (start : Instant)
    (schedule : List (Instant × Move)) : Prop :=
  ∃ run ∈ lifeQuiet name policy audience start schedule, ∃ s ∈ run.stages.getLast?, s.Trips

instance : Decidable (TripsAt name policy audience start schedule) :=
  inferInstanceAs (Decidable (∃ run ∈ lifeQuiet name policy audience start schedule,
    ∃ s ∈ run.stages.getLast?, s.Trips))

theorem extendQuiet_under (h : run.engine.policy.Stricter milder) {entry : Instant × Move}
    (hfits : run.engine.policy.Fits entry.1) :
    (run.under milder).extendQuiet entry = (run.extendQuiet entry).map (·.under milder) ∨
      ∃ after ∈ run.extendQuiet entry, ∃ s ∈ after.stages.getLast?, s.Trips := by
  rcases stepQuiet_under h hfits entry.2 with hsame | ⟨r, hquiet, htrips⟩
  · left
    rw [Run.extendQuiet, Run.extendQuiet, show (run.under milder).engine.stepQuiet _ _ = _ from
      hsame, Option.map_map, Option.map_map]
    congr 1
    funext r
    exact (run.under_snoc
      { before := run.engine, now := entry.1, move := entry.2, response := r } milder).symm
  · exact .inr ⟨_, by rw [Run.extendQuiet, hquiet]; rfl, _, by simp [Run.snoc], htrips⟩

/-- A whole run does the same under both policies, unless some move of it trips
the breaker. -/
theorem lifeQuiet_under (name : String) (audience : Audience) (start : Instant)
    (h : policy.Stricter milder) (hfits : ∀ entry ∈ schedule, policy.Fits entry.1) :
    lifeQuiet name milder audience start schedule =
        (lifeQuiet name policy audience start schedule).map (·.under milder) ∨
      ∃ n ≤ schedule.length, TripsAt name policy audience start (schedule.take n) := by
  induction schedule using List.reverseRecOn with
  | nil =>
    left
    simp only [lifeQuiet, new?, Circuit.fresh?, h.closedWindow_eq]
    cases Clock.deadline? start policy.closedWindow <;> rfl
  | append_singleton rest entry ih =>
    rw [List.forall_mem_append, List.forall_mem_singleton] at hfits
    rcases ih hfits.1 with hsame | ⟨n, hle, htrips⟩
    · rw [lifeQuiet_concat, lifeQuiet_concat, hsame]
      cases hrest : lifeQuiet name policy audience start rest with
      | none => exact .inl rfl
      | some run =>
        have hpolicy := (resting_of_lifeQuiet hfits.1 hrest).policy_eq
        rcases extendQuiet_under (hpolicy.symm ▸ h) (hpolicy.symm ▸ hfits.2) with
          hsame | ⟨after, hafter, htrips⟩
        · exact .inl hsame
        · refine .inr ⟨(rest ++ [entry]).length, Nat.le_refl _, after, ?_, htrips⟩
          rw [List.take_length, lifeQuiet_concat, hrest]
          exact hafter
    · refine .inr ⟨n, by rw [List.length_append]; omega, ?_⟩
      rwa [List.take_append_of_le_length hle]

/-- A stricter policy trips first.  Take two new breakers, one under a policy and
one under a milder one, with listeners that only return, and let clients do the
same with both.  As long as no move trips the first, both go through the same
stages: the same replies and the same journals, and after every move the same
phase, generation, counters and deadline.  So whenever a move trips the breaker
under the milder policy, that move or an earlier one trips the other. -/
theorem stricter_trips_first (h : policy.Stricter milder)
    (hfits : ∀ entry ∈ schedule, policy.Fits entry.1) :
    ((∀ n ≤ schedule.length, ¬ TripsAt name policy audience start (schedule.take n)) →
      lifeQuiet name milder audience start schedule =
        (lifeQuiet name policy audience start schedule).map (·.under milder)) ∧
    (TripsAt name milder audience start schedule →
      ∃ n ≤ schedule.length, TripsAt name policy audience start (schedule.take n)) := by
  rcases lifeQuiet_under name audience start h hfits with hsame | htrips
  · refine ⟨fun _ => hsame, ?_⟩
    rintro ⟨run', hrun', s', hs', htrips⟩
    rw [hsame] at hrun'
    obtain ⟨run, hrun, rfl⟩ := Option.map_eq_some_iff.1 hrun'
    obtain ⟨s, hs, rfl⟩ := Option.map_eq_some_iff.1 (List.getLast?_map ▸ hs')
    obtain ⟨-, hpolicies⟩ := lifeQuiet_induction
      (motive := fun run => ∀ s ∈ run.stages, s.before.policy = policy) (by simp) (by
        intro run s hrun _ hresting _
        simp only [Run.snoc, List.forall_mem_append, List.forall_mem_singleton]
        exact ⟨hrun, hresting.policy_eq⟩) hfits hrun
    have hpolicy := hpolicies s (List.mem_of_getLast? hs)
    refine ⟨schedule.length, Nat.le_refl _, run, ?_, s, hs, ?_⟩
    · rwa [List.take_length]
    · exact (Stage.trips_under (hpolicy.symm ▸ h)).1 htrips
  · exact ⟨fun hnone => absurd htrips (by simpa using hnone), fun _ => htrips⟩

/-- Three calls overlap and are given up one after the other.  The second failure
trips the stricter policy; the milder one waits for three calls that have all
failed, and up to there the two breakers are the same. -/
theorem stricter_trips_first_overlapping :
    ∃ run ∈ lifeQuiet "db" { minRequests := 2 } .client 0
        [(0, .call), (1, .suspend), (2, .call), (3, .suspend), (4, .call), (5, .suspend),
          (6, .abandon ⟨0, 0⟩)],
      lifeQuiet "db" { minRequests := 3, threshold := .one } .client 0
          [(0, .call), (1, .suspend), (2, .call), (3, .suspend), (4, .call), (5, .suspend),
            (6, .abandon ⟨0, 0⟩)] =
        some (run.under { minRequests := 3, threshold := .one }) ∧
      ∃ n ≤ 9, TripsAt "db" { minRequests := 2 } .client 0
        (List.take n [(0, .call), (1, .suspend), (2, .call), (3, .suspend), (4, .call),
          (5, .suspend), (6, .abandon ⟨0, 0⟩), (7, .abandon ⟨1, 0⟩), (8, .abandon ⟨2, 0⟩)]) := by
  have hstricter : Policy.Stricter { minRequests := 2 } { minRequests := 3, threshold := .one } :=
    ⟨rfl, rfl, rfl, by decide, by decide +kernel⟩
  obtain ⟨run, hlife, -⟩ :
      ∃ run ∈ lifeQuiet "db" { minRequests := 2 } .client 0
        [(0, .call), (1, .suspend), (2, .call), (3, .suspend), (4, .call), (5, .suspend),
          (6, .abandon ⟨0, 0⟩)], True := by
    decide +kernel
  refine ⟨run, hlife, ?_, ?_⟩
  · rw [(stricter_trips_first hstricter (by decide +kernel)).1 (by decide +kernel), hlife]
    rfl
  · have htrips : TripsAt "db" { minRequests := 3, threshold := .one } .client 0
        [(0, .call), (1, .suspend), (2, .call), (3, .suspend), (4, .call), (5, .suspend),
          (6, .abandon ⟨0, 0⟩), (7, .abandon ⟨1, 0⟩), (8, .abandon ⟨2, 0⟩)] := by
      decide +kernel
    exact (stricter_trips_first hstricter (by decide +kernel)).2 htrips

end

end Engine

end Breaker
