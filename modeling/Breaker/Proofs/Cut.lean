import Breaker.Proofs.Period

/-!
# Methods that the clock cuts short

The deadline of a period is the last thing that is set when the period begins.
When the clock cannot hold it, the method panics there: the circuit is already
in the new period, with the next generation and an empty window, but has kept
the deadline of the period before, and no change of phase is queued.

* `Engine.Overruns` says of a move, before it is made, that the period it
  starts has a deadline past the end of the clock;
* `Took.cut_or_whole` is the case analysis: a move either overruns and panics,
  or does not overrun and does not panic by itself;
* `Stage.Whole` is what one would ask of a method that panics: the circuit and
  the mailbox are as it found them, or as the start of a period leaves them.

`whole_iff_not_overruns` puts this together: a method that the clock cuts short
never leaves the breaker whole.
-/

namespace Breaker

namespace Circuit

/-- Whether a turn is cut short does not depend on the circuit. -/
theorem turn_eq_overflow_iff {policy : Policy} {now : Instant} {next : Option Phase} {c : Circuit} :
    (∃ c', c.turn policy now next = .overflow c') ↔
      ∃ span, next.bind policy.period = some span ∧ Clock.horizon ≤ now + span := by
  cases next with
  | none => simp
  | some phase =>
    simp only [turn, startPeriod, Option.bind_some]
    cases policy.period phase with
    | none => simp
    | some span =>
      by_cases hheld : now + span < Clock.horizon
      · simp [Clock.deadline?_eq_some hheld, Nat.not_le.2 hheld]
      · simp [Clock.deadline?, hheld, Nat.not_lt.1 hheld]

end Circuit

namespace Engine

/-- How long the period lasts that a move starts, if it starts one with an end
of its own. -/
def asks (e : Engine) (now : Instant) (move : Move) : Option Span :=
  (e.starts now move).bind e.policy.period

/-- The clock cannot hold the deadline of the period that the move starts. -/
def Overruns (e : Engine) (now : Instant) (move : Move) : Prop :=
  ∃ span, e.asks now move = some span ∧ Clock.horizon ≤ now + span

theorem overruns_iff {e : Engine} {now : Instant} {move : Move} {c : Circuit} :
    e.Overruns now move ↔
      ∃ c', c.turn e.policy now (e.starts now move) = .overflow c' :=
  Circuit.turn_eq_overflow_iff.symm

theorem not_overruns_of_done {e : Engine} {now : Instant} {move : Move} {c c' : Circuit}
    {change : Option Transition} (h : c.turn e.policy now (e.starts now move) = .done c' change) :
    ¬ e.Overruns now move := by
  rw [overruns_iff (c := c), h]
  simp

/-- What a move that overruns does: it panics at once, with the circuit in the
new period and the mailbox as it was. -/
structure Cut (e : Engine) (now : Instant) (move : Move) (r : Response) : Prop where
  overruns : e.Overruns now move
  reply_eq : r.reply = .panicked Clock.overflowText
  ne_heard : move ≠ .heard
  circuit_eq : r.engine.circuit = (e.circuit.turn e.policy now (e.starts now move)).circuit
  mailbox_eq : r.engine.mailbox = e.mailbox

/-- A method that is not unwinding does not end with a panic. -/
theorem deliver_ne_panicked {e : Engine} {sequel : Sequel} (hsequel : isProper sequel = true)
    (hunwind : ∀ text, sequel ≠ .unwind text) (journal : List Entry) (text : String) :
    (e.deliver sequel journal).reply ≠ .panicked text := by
  rcases deliver_cases e sequel journal with ⟨t, rest, -, heq⟩ | ⟨-, heq⟩
  · simp [heq]
  · rw [heq]
    cases sequel with
    | answer reply =>
      cases reply with
      | panicked text => cases hsequel
      | _ => simp [conclude]
    | operate t => simp [conclude]
    | refuse r => simp [conclude]
    | unwind text => exact absurd rfl (hunwind text)

section

variable {e : Engine} {now : Instant} {move : Move} {r : Response}

/-- When what is due cannot be applied, that is the period which the move
starts. -/
theorem turn_starts_of_overflow {c : Circuit} (hmove : e.evaluates move = true)
    (heval : e.circuit.evaluate e.policy now = .overflow c) :
    e.circuit.turn e.policy now (e.starts now move) = .overflow c := by
  rw [evaluate_eq_turn_lapses hmove] at heval
  cases hlapses : e.lapses now move with
  | none =>
    rw [hlapses] at heval
    cases heval
  | some phase =>
    rw [starts_of_lapses hlapses, ← hlapses]
    exact heval

/-- When what is due has been applied, either that was the period which the
move starts, or nothing was due. -/
theorem starts_of_done {c : Circuit} {change : Option Transition}
    (hmove : e.evaluates move = true)
    (heval : e.circuit.evaluate e.policy now = .done c change) :
    e.circuit.turn e.policy now (e.starts now move) = .done c change ∨
      e.starts now move = e.rules move ∧ c = e.circuit ∧ change = none := by
  rw [evaluate_eq_turn_lapses hmove] at heval
  cases hlapses : e.lapses now move with
  | some phase =>
    left
    rw [starts_of_lapses hlapses, ← hlapses]
    exact heval
  | none =>
    rw [hlapses] at heval
    cases heval
    exact .inr ⟨starts_of_not_lapses hlapses, rfl, rfl⟩

/-- A move that ends no call and has applied what is due does not overrun. -/
theorem not_overruns_of_evaluate {c : Circuit} {change : Option Transition}
    (hmove : e.evaluates move = true) (hrules : e.rules move = none)
    (heval : e.circuit.evaluate e.policy now = .done c change) : ¬ e.Overruns now move := by
  rcases starts_of_done hmove heval with hdone | ⟨hstarts, -, -⟩
  · exact not_overruns_of_done hdone
  · rw [hrules] at hstarts
    exact not_overruns_of_done (c := e.circuit) (by rw [hstarts, Circuit.turn_none])

/-- Nor does the end of a call that the breaker has taken note of. -/
theorem Ends.not_overruns {e' : Engine} {t : Ticket} {success : Bool} {sequel : Sequel}
    {c c' : Circuit} {change change' : Option Transition}
    (hends : e.Ends move t success e' sequel)
    (heval : e.circuit.evaluate e.policy now = .done c change)
    (hsettles : Settles e.policy now t success c c' change') : ¬ e.Overruns now move := by
  have hending := hends.ending
  rcases starts_of_done (evaluates_of_ending hending) heval with hdone | ⟨hstarts, rfl, -⟩
  · exact not_overruns_of_done hdone
  · rw [rules_of_ending hending] at hstarts
    rcases hsettles with ⟨hstale, -, -⟩ | ⟨hcurrent, hsettle⟩
    · rw [if_neg hstale] at hstarts
      exact not_overruns_of_done (c := e.circuit) (by rw [hstarts, Circuit.turn_none])
    · rw [if_pos hcurrent] at hstarts
      rw [Circuit.settle_eq_turn, ← hstarts] at hsettle
      exact not_overruns_of_done hsettle

/-- The end of a call whose record starts a period that the clock cannot hold.
Nothing was due, or the call would have been of an earlier generation. -/
theorem Ends.cut {e' : Engine} {t : Ticket} {success : Bool} {sequel : Sequel}
    {c c' : Circuit} {change : Option Transition} (hends : e.Ends move t success e' sequel)
    (hpast : e.Past move) (heval : e.circuit.evaluate e.policy now = .done c change)
    (hcurrent : t.generation = c.generation)
    (hsettle : c.settle e.policy now success = .overflow c') (journal : List Entry) :
    e.Cut now move ((e'.accept c change).overflow c' journal) := by
  have hending := hends.ending
  have hlapses : e.lapses now move = none := by
    apply hpast.lapses_eq_none hending
    rw [hends.evaluated_eq heval]
    exact hcurrent
  rw [evaluate_eq_turn_lapses (evaluates_of_ending hending), hlapses, Circuit.turn_none] at heval
  cases heval
  have hstarts : e.starts now move = (e.circuit.record success).verdict e.policy success := by
    rw [starts_of_not_lapses hlapses, rules_of_ending hending, if_pos hcurrent]
  rw [Circuit.settle_eq_turn, ← hstarts] at hsettle
  refine ⟨overruns_iff.2 ⟨c', hsettle⟩, rfl, ?_, ?_, ?_⟩
  · rintro rfl
    cases hends
  · obtain ⟨phase, hphase⟩ : ∃ phase, e.starts now move = some phase := by
      cases hnone : e.starts now move with
      | none =>
        rw [hnone] at hsettle
        cases hsettle
      | some phase => exact ⟨phase, rfl⟩
    have hcircuit := congrArg Circuit.Outcome.circuit hsettle
    rw [hphase, Circuit.circuit_turn_eq] at hcircuit
    rw [hphase, Circuit.circuit_turn_eq]
    exact hcircuit.symm
  · show e'.mailbox.push none = e.mailbox
    rw [Mailbox.push_none]
    exact hends.listeners_eq.1

/-- A move that overruns is cut short.  Any other does not panic by itself: it
can only pass on the panic of an operation or of the listener. -/
theorem Took.cut_or_whole (h : e.Took now move r) (hpast : e.Past move) :
    e.Cut now move r ∨ ¬ e.Overruns now move ∧
      ∀ text, r.reply = .panicked text → move = .heard ∨ ∃ text', move = .panic text' := by
  cases h with
  | queried heval view journal =>
    refine .inr ⟨not_overruns_of_evaluate rfl rfl heval, fun text hreply => ?_⟩
    exact absurd hreply (deliver_ne_panicked rfl (fun _ => Sequel.noConfusion) journal text)
  | refused heval hallow journal =>
    refine .inr ⟨not_overruns_of_evaluate rfl rfl heval, fun text hreply => ?_⟩
    exact absurd hreply (deliver_ne_panicked rfl (fun _ => Sequel.noConfusion) journal text)
  | admitted heval hallow journal =>
    refine .inr ⟨not_overruns_of_evaluate rfl rfl heval, fun text hreply => ?_⟩
    exact absurd hreply (deliver_ne_panicked rfl (fun _ => Sequel.noConfusion) journal text)
  | @reset c change hreset journal =>
    have hdone : e.circuit.turn e.policy now (e.starts now .reset) = .done c change := hreset
    refine .inr ⟨not_overruns_of_done hdone, fun text hreply => ?_⟩
    exact absurd hreply (deliver_ne_panicked rfl (fun _ => Sequel.noConfusion) journal text)
  | @cut move c hmove heval =>
    have hevaluates : e.evaluates move = true := by rcases hmove with rfl | rfl <;> rfl
    have hturn := turn_starts_of_overflow hevaluates heval
    refine .inl ⟨overruns_iff.2 ⟨c, hturn⟩, rfl, ?_, by rw [hturn]; rfl, rfl⟩
    rcases hmove with rfl | rfl <;> exact Move.noConfusion
  | @resetCut c hreset =>
    have hturn : e.circuit.turn e.policy now (e.starts now .reset) = .overflow c := hreset
    exact .inl ⟨overruns_iff.2 ⟨c, hturn⟩, rfl, Move.noConfusion, by rw [hturn]; rfl, rfl⟩
  | @ended move t success e' sequel c c' change change' hends heval hsettles journal =>
    refine .inr ⟨hends.not_overruns heval hsettles, fun text hreply => ?_⟩
    cases hends with
    | panic text' hframes => exact .inr ⟨text', rfl⟩
    | finish success hframes =>
      exact absurd hreply (deliver_ne_panicked rfl (fun _ => Sequel.noConfusion) journal text)
    | abandon hmem =>
      exact absurd hreply (deliver_ne_panicked rfl (fun _ => Sequel.noConfusion) journal text)
  | @endedCut move t success e' sequel c hends heval journal =>
    have hturn := turn_starts_of_overflow (evaluates_of_ending hends.ending) heval
    refine .inl ⟨overruns_iff.2 ⟨c, hturn⟩, rfl, ?_, by rw [hturn]; rfl, hends.listeners_eq.1⟩
    rintro rfl
    cases hends
  | settledCut hends heval hcurrent hsettle journal =>
    exact .inl (hends.cut hpast heval hcurrent hsettle journal)
  | resumed hmem =>
    refine .inr ⟨?_, fun text hreply => nomatch hreply⟩
    exact not_overruns_of_done (c := e.circuit) rfl
  | suspended hframes =>
    refine .inr ⟨?_, fun text hreply => nomatch hreply⟩
    exact not_overruns_of_done (c := e.circuit) rfl
  | heard hframes =>
    refine .inr ⟨?_, fun _ _ => .inl rfl⟩
    exact not_overruns_of_done (c := e.circuit) rfl
  | @silenced t sequel frames text hframes =>
    refine .inr ⟨?_, fun _ _ => .inr ⟨text, rfl⟩⟩
    have hending : e.ending (.panic text) = none := by simp [ending, hframes]
    have hstarts : e.starts now (.panic text) = none := by
      simp [starts, lapses, evaluates, hending, rules]
    exact not_overruns_of_done (c := e.circuit) (by rw [hstarts, Circuit.turn_none])

/-- A panic inside one that is unwinding has no response, so an operation that
panics is never cut short. -/
theorem not_overruns_of_panic {text : String} (hstep : e.step now (.panic text) = some r) :
    ¬ e.Overruns now (.panic text) := by
  cases hframes : e.frames with
  | nil => simp [step, hframes] at hstep
  | cons frame frames =>
    cases frame with
    | listening t sequel =>
      have hending : e.ending (.panic text) = none := by simp [ending, hframes]
      have hstarts : e.starts now (.panic text) = none := by
        simp [starts, lapses, evaluates, hending, rules]
      exact not_overruns_of_done (c := e.circuit) (by rw [hstarts, Circuit.turn_none])
    | operating t =>
      have hends : e.Ends (.panic text) t false { e with frames } (.unwind text) :=
        .panic text hframes
      simp only [step, hframes, report] at hstep
      cases heval : e.circuit.evaluate e.policy now with
      | overflow c =>
        rw [heval] at hstep
        cases hstep
      | done c change =>
        simp only [heval] at hstep
        split at hstep
        · exact hends.not_overruns heval (.inl ⟨by assumption, rfl, rfl⟩)
        · rename_i hcurrent
          rw [show (({ e with frames } : Engine).accept c change).policy = e.policy from rfl]
            at hstep
          cases hsettle : c.settle e.policy now false with
          | overflow c' =>
            rw [hsettle] at hstep
            cases hstep
          | done c' change' =>
            exact hends.not_overruns heval (.inr ⟨by omega, hsettle⟩)

end

/-! ## What a panic of the clock leaves -/

/-- The method panics because the clock cannot hold a deadline.  A listener
that returns, or anything that panics itself, calls no method. -/
def Stage.clockPanics (s : Stage) : Bool :=
  match s.move with
  | .heard | .panic _ => false
  | _ => s.response.reply = .panicked Clock.overflowText

/-- The circuit and what is queued are as the method found them, or else as a
complete step leaves them: the deadline is that of a period which began now in
the phase of the circuit, and the change of phase, if there is one, is queued. -/
def Stage.Whole (s : Stage) : Prop :=
  s.response.engine.circuit = s.before.circuit ∧
      s.response.engine.mailbox.pending = s.before.mailbox.pending ∨
    s.response.engine.circuit.expiry =
        (s.before.policy.period s.response.engine.circuit.phase).map (s.now + ·) ∧
      s.response.engine.mailbox.pending = s.before.mailbox.pending ++
        (s.before.circuit.phase.change s.response.engine.circuit.phase).toList

instance (s : Stage) : Decidable s.Whole := inferInstanceAs (Decidable (_ ∨ _))

section

variable {name : String} {policy : Policy} {audience : Audience} {start : Instant}
variable {schedule : List (Instant × Move)} {run : Run} {now : Instant} {move : Move} {r : Response}

/-- A method panics because of the clock exactly when it asks for a deadline
that the clock cannot hold. -/
theorem clockPanics_iff (hpast : run.engine.Past move)
    (hstep : run.engine.step now move = some r) :
    Stage.clockPanics { before := run.engine, now, move, response := r } = true ↔
      run.engine.Cut now move r := by
  constructor
  · intro hpanics
    rcases (step_took hstep).cut_or_whole hpast with hcut | ⟨-, hreply⟩
    · exact hcut
    · simp only [Stage.clockPanics] at hpanics
      split at hpanics
      · cases hpanics
      · cases hpanics
      · rename_i hheard hpanic
        rcases hreply _ (by simpa using hpanics) with rfl | ⟨text, rfl⟩
        · exact absurd rfl hheard
        · exact absurd rfl (hpanic text)
  · intro hcut
    simp only [Stage.clockPanics]
    split
    · exact absurd rfl hcut.ne_heard
    · exact absurd hcut.overruns (not_overruns_of_panic hstep)
    · simp [hcut.reply_eq]

/-- Every deadline that a circuit has is one that the clock can hold. -/
theorem expiry_lt_horizon (hlife : life name policy audience start schedule = some run)
    {deadline : Instant} (hdeadline : run.engine.circuit.expiry = some deadline) :
    deadline < Clock.horizon := by
  have hheld : ∀ {now deadline : Instant} {span : Span},
      Clock.deadline? now span = some deadline → deadline < Clock.horizon := by
    intro now deadline span h
    unfold Clock.deadline? at h
    split at h <;> cases h
    assumption
  refine (reached_induction (motive := fun run => ∀ deadline,
    run.engine.circuit.expiry = some deadline → deadline < Clock.horizon) ?_ ?_ hlife).2 _ hdeadline
  · intro e hnew deadline hexpiry
    obtain ⟨hfirst, hlt⟩ := expiry_new hnew
    cases hfirst.symm.trans hexpiry
    exact hlt
  · rintro run ⟨e, now, move, r⟩ hreached hlt rfl - hvalid deadline hexpiry
    obtain ⟨w, hcircuit⟩ := (step_took hvalid).circuit_eq (hreached.past (step_took hvalid))
    change r.engine.circuit.expiry = some deadline at hexpiry
    rw [hcircuit] at hexpiry
    cases hstarts : run.engine.starts now move with
    | none =>
      rw [hstarts] at hexpiry
      exact hlt deadline hexpiry
    | some phase =>
      simp only [hstarts, Circuit.circuit_turn_eq] at hexpiry
      obtain ⟨span, -, hor⟩ := Option.bind_eq_some_iff.1 hexpiry
      rcases Option.or_eq_some_iff.1 hor with hnew | ⟨-, hold⟩
      · exact hheld hnew
      · exact hlt deadline hold

/-- What the panic leaves is the new period with the old deadline, and the
mailbox as it was. -/
theorem Cut.left_eq (h : run.engine.Cut now move r) :
    ∃ phase, run.engine.starts now move = some phase ∧
      r.engine.circuit =
        { run.engine.circuit with
          phase, generation := run.engine.circuit.generation + 1, window := {} } ∧
      r.engine.mailbox = run.engine.mailbox := by
  obtain ⟨span, hasks, hlate⟩ := h.overruns
  obtain ⟨phase, hstarts, hspan⟩ := Option.bind_eq_some_iff.1 hasks
  refine ⟨phase, hstarts, ?_, h.mailbox_eq⟩
  have hnone : Clock.deadline? now span = none := by
    rw [Clock.deadline?, if_neg (Nat.not_lt.2 hlate)]
  rw [h.circuit_eq, hstarts, Circuit.circuit_turn_eq, hspan, Option.bind_some, hnone,
    Option.none_or]

theorem Cut.not_whole (hlife : life name policy audience start schedule = some run)
    (h : run.engine.Cut now move r) :
    ¬ Stage.Whole { before := run.engine, now, move, response := r } := by
  obtain ⟨phase, hstarts, hcircuit, -⟩ := h.left_eq
  obtain ⟨span, hasks, hlate⟩ := h.overruns
  rw [asks, hstarts, Option.bind_some] at hasks
  rintro (⟨hsame, -⟩ | ⟨hexpiry, -⟩)
  · have hgeneration := congrArg Circuit.generation (hcircuit.symm.trans hsame)
    simp at hgeneration
  · simp only [hcircuit, hasks, Option.map_some] at hexpiry
    exact absurd (expiry_lt_horizon hlife hexpiry) (Nat.not_lt.2 hlate)

/-- A method that panics because of the clock leaves the breaker whole only
where it does not panic at all, which is where the clock can hold the deadline
of every period that it starts.

Else the circuit is in the new period, in the new phase, with the next
generation and an empty window, but it keeps the deadline of the period before,
and the change of phase is queued nowhere. -/
theorem whole_iff_not_overruns (hlife : life name policy audience start schedule = some run)
    (hstep : run.engine.step now move = some r) :
    ((Stage.clockPanics { before := run.engine, now, move, response := r } = true →
        Stage.Whole { before := run.engine, now, move, response := r }) ↔
      ∀ span, run.engine.asks now move = some span → now + span < Clock.horizon) ∧
    (Stage.clockPanics { before := run.engine, now, move, response := r } = true →
      ∃ phase, run.engine.starts now move = some phase ∧
        r.engine.circuit =
          { run.engine.circuit with
            phase, generation := run.engine.circuit.generation + 1, window := {} } ∧
        r.engine.mailbox = run.engine.mailbox) := by
  have hpast := (reached_of_life hlife).past (step_took hstep)
  rw [clockPanics_iff hpast hstep]
  refine ⟨?_, Cut.left_eq⟩
  constructor
  · intro hwhole span hasks
    by_contra hlate
    rcases (step_took hstep).cut_or_whole hpast with hcut | ⟨hheld, -⟩
    · exact hcut.not_whole hlife (hwhole hcut)
    · exact hheld ⟨span, hasks, Nat.not_lt.1 hlate⟩
  · intro hheld hcut
    obtain ⟨span, hasks, hlate⟩ := hcut.overruns
    exact absurd (hheld span hasks) (Nat.not_lt.2 hlate)

/-- The first window ends a second before the clock does, and a reset a minute
later asks for a deadline past its end: the circuit is closed as before, in the
next generation, with the deadline of the first. -/
theorem whole_iff_not_overruns_reset :
    ∃ run ∈ life "db" { closedWindow := Clock.horizon - Clock.second } .client 0 [(1, .call)],
      ∃ r ∈ run.engine.step (60 * Clock.second) .reset,
        Stage.clockPanics
            { before := run.engine, now := 60 * Clock.second, move := .reset, response := r } ∧
          ¬ Stage.Whole
            { before := run.engine, now := 60 * Clock.second, move := .reset, response := r } ∧
          r.engine.circuit.generation = run.engine.circuit.generation + 1 ∧
          r.engine.circuit.expiry = run.engine.circuit.expiry := by
  obtain ⟨run, hlife, hasks, r, hstep, hpanics⟩ :
      ∃ run ∈ life "db" { closedWindow := Clock.horizon - Clock.second } .client 0 [(1, .call)],
        run.engine.asks (60 * Clock.second) .reset = some (Clock.horizon - Clock.second) ∧
          ∃ r ∈ run.engine.step (60 * Clock.second) .reset,
            Stage.clockPanics
              { before := run.engine, now := 60 * Clock.second, move := .reset,
                response := r } := by
    decide +kernel
  obtain ⟨hwhole, hleft⟩ := whole_iff_not_overruns hlife hstep
  obtain ⟨phase, -, hcircuit, -⟩ := hleft hpanics
  refine ⟨run, hlife, r, hstep, hpanics, ?_, by rw [hcircuit], by rw [hcircuit]⟩
  intro h
  exact absurd (hwhole.1 (fun _ => h) _ hasks) (by decide)

/-- A failure opens the circuit, and the clock cannot hold the end of the open
period: the circuit is open in the next generation, it will be due when the
closed window would have been over, and nobody is told. -/
theorem cut_trip_not_whole :
    Policy.Sound "db" { openDuration := Clock.horizon, minRequests := 1 } ∧
      ∃ run ∈ life "db" { openDuration := Clock.horizon, minRequests := 1 } .client 0 [(0, .call)],
        run.engine.circuit.phase = .closed ∧
        ∃ r ∈ run.engine.step 0 (.finish false),
          Stage.clockPanics
            { before := run.engine, now := 0, move := .finish false, response := r } ∧
          ¬ Stage.Whole { before := run.engine, now := 0, move := .finish false, response := r } ∧
          r.engine.circuit =
            { phase := .opened, generation := 1, window := {},
              expiry := some (60 * Clock.second) } ∧
          r.engine.mailbox.pending = [] :=
  ⟨⟨by decide +kernel, by decide, by decide⟩, by decide +kernel⟩

end

end Engine

end Breaker
