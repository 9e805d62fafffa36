import Breaker.Proofs.Healthy
import Breaker.Proofs.Probes
import Breaker.Proofs.Trip
import Mathlib.Algebra.Order.Floor.Div

/-!
# A dependency that always fails

One worker calls a dependency whose operations all fail, on a clock on which
time passes in sleeps only.  What comes of it can be said in advance.  The first
calls fail until the circuit opens.  From then on every open period refuses the
same number of calls, and the call after them is a probe, which fails and starts
the next open period.

* `Policy.fatalRun` counts the calls that open the circuit, `Policy.refusals`
  those that an open period refuses; `Policy.opening` numbers the first call that
  meets an open period.
* `Circuit.Battered` is the circuit after so many calls, `Circuit.Strained` the
  one while an operation runs.  `Battered.ask` and `Strained.finish` lead from
  call to call, `Battered.tally` reads the outcomes off their number.
* `Host.Plain`: the listener only returns.
* `Perseveres` ties the worker to the circuit; every stride keeps it.

Every call takes one latency, whether its operation runs or the worker waits
because the circuit is open.  So the number of a call tells when it begins.
-/

namespace Breaker

/-- At a failure rate of one every operation fails. -/
theorem Workload.fails_eq_true {w : Workload} (hrate : Binary64.one.le w.failureRate = true)
    (seed number : Nat) : w.fails seed number = true := by
  rw [fails, if_pos hrate]

/-- When all calls have failed, the fraction that failed is one without
rounding. -/
theorem Binary64.ofRatio_self {n : Nat} (hpos : 0 < n) : ofRatio n n = one := by
  obtain ⟨scale, hscale, hscale_pos, hdvd⟩ :
      ∃ scale, Nat.pow 2 (spacing unitsPerOne) = scale ∧ 0 < scale ∧ scale ∣ unitsPerOne :=
    ⟨_, rfl, by decide +kernel, by decide +kernel⟩
  have hrest : n * unitsPerOne % (n * scale) = 0 := by
    rw [Nat.mul_mod_mul_left, Nat.mod_eq_zero_of_dvd hdvd, Nat.mul_zero]
  have hround : roundDiv (n * unitsPerOne) (n * scale) = unitsPerOne / scale := by
    rw [roundDiv, hrest, Nat.mul_div_mul_left _ _ hpos]
    exact if_pos (Nat.mul_pos hpos hscale_pos)
  have hunits : roundUnits (n * unitsPerOne) n = unitsPerOne := by
    rw [roundUnits, Nat.mul_div_cancel_left _ hpos, hscale]
    simp only [hround, Nat.div_mul_cancel hdvd]
  have hfinite : unitsPerOne < unitsLimit := by decide +kernel
  rw [ofRatio, nearest, hunits]
  exact if_pos hfinite

theorem Window.failureRate_of_all {w : Window} (hpos : 0 < w.requests)
    (hall : w.failures = w.requests) : w.failureRate = .one := by
  rw [failureRate, if_neg (Nat.pos_iff_ne_zero.1 hpos), hall, Binary64.ofRatio_self hpos]

theorem Policy.Sound.threshold_le_one {name : String} {policy : Policy}
    (h : policy.Sound name) : policy.threshold.le .one = true := by
  have hfaults := h.faults_eq
  cases husable : Policy.usableThreshold policy.threshold with
  | false => simp [Policy.faults, husable] at hfaults
  | true => exact (Bool.and_eq_true_iff.1 husable).2

namespace Policy

/-- How many calls in a row open a closed circuit, when all of them fail. -/
def fatalRun (policy : Policy) : Nat := max 1 policy.minRequests

/-- How many calls an open period refuses, when they come at that interval and
the first of them at once. -/
def refusals (policy : Policy) (interval : Span) : Nat := policy.openDuration ⌈/⌉ interval

/-- How many calls come before the open period that follows so many failed
probes. -/
def opening (policy : Policy) (interval : Span) (probes : Nat) : Nat :=
  policy.fatalRun + probes * (policy.refusals interval + 1)

variable {policy : Policy} {interval : Span}

theorem fatalRun_pos : 0 < policy.fatalRun := Nat.lt_of_lt_of_le Nat.one_pos (Nat.le_max_left _ _)

theorem Sound.fatalRun_le {name : String} (h : policy.Sound name) :
    policy.fatalRun ≤ Window.cap :=
  Nat.max_le.2 ⟨by decide, h.minRequests_le⟩

theorem refusals_le_iff (hinterval : 0 < interval) {n : Nat} :
    policy.refusals interval ≤ n ↔ policy.openDuration ≤ n * interval := by
  rw [refusals, ceilDiv_le_iff_le_mul hinterval, Nat.mul_comm]

@[simp] theorem opening_zero : policy.opening interval 0 = policy.fatalRun := by
  simp [opening]

theorem opening_succ (probes : Nat) : policy.opening interval (probes + 1) =
    policy.opening interval probes + policy.refusals interval + 1 := by
  simp only [opening, Nat.succ_mul]
  omega

end Policy

namespace Circuit

variable {policy : Policy} {name : String} {start now : Instant} {interval : Span}
variable {n : Nat} {o : Outcomes} {c : Circuit}

/-! ## The circuit from call to call -/

/-- A circuit that is not due stays as it is. -/
theorem evaluate_of_not_due (hdue : c.isDue now = false) : c.evaluate policy now = .done c none := by
  rw [evaluate, hdue]
  rfl

theorem isDue_opened {expiry : Instant} (hphase : c.phase = .opened)
    (hexpiry : c.expiry = some expiry) : c.isDue now = true ↔ expiry ≤ now := by
  simp [isDue, hphase, hexpiry]

/-- An open circuit whose period is over becomes half open, with an empty
window. -/
theorem evaluate_of_due_opened (hphase : c.phase = .opened) (hdue : c.isDue now = true) :
    c.evaluate policy now =
      .done { phase := .halfOpen, generation := c.generation + 1, window := {}, expiry := none }
        (some { source := .opened, target := .halfOpen }) := by
  simp [evaluate, hdue, hphase, moveTo, startPeriod, Policy.period]

/-- A failure that opens the circuit sets the deadline one open duration later. -/
theorem settle_of_verdict_opened (hfits : policy.Fits now)
    (hverdict : (c.record false).verdict policy false = some .opened) :
    c.settle policy now false =
      .done
        { phase := .opened, generation := c.generation + 1, window := {}
          expiry := some (now + policy.openDuration) }
        (c.phase.change .opened) := by
  rw [settle_eq_turn, hverdict]
  simp [turn, startPeriod, Policy.period, Clock.deadline?_eq_some hfits.2, record]

/-- When all calls have failed, enough of them open the circuit. -/
theorem shouldTrip_of_all (hsound : policy.Sound name) {w : Window} (hpos : 0 < w.requests)
    (hall : w.failures = w.requests) :
    shouldTrip policy w = true ↔ policy.fatalRun ≤ w.requests := by
  have hmin : policy.fatalRun ≤ w.requests ↔ policy.minRequests ≤ w.requests :=
    Nat.max_le.trans (and_iff_right hpos)
  rw [shouldTrip, Window.failureRate_of_all hpos hall, hsound.threshold_le_one, Bool.and_true,
    decide_eq_true_iff, hmin]

/-- The circuit after `n` calls with the outcomes `o`, none of which has
succeeded; the first one began at `start` and the others followed at the
interval. -/
inductive Battered (policy : Policy) (start : Instant) (interval : Span) (n : Nat) (o : Outcomes)
    (c : Circuit) : Prop where
  /-- The circuit is still in its first period. -/
  | counting (hfew : n < policy.fatalRun) (houtcomes : o = { failed := n })
      (hphase : c.phase = .closed) (hrequests : c.window.requests = n)
      (hfailures : c.window.failures = n)
      (hexpiry : c.expiry = some (start + policy.closedWindow))
  /-- The circuit is open since as many calls as it has refused. -/
  | opened (probes refused : Nat) (hcalls : n = policy.opening interval probes + refused)
      (hrefused : refused ≤ policy.refusals interval)
      (houtcomes : o =
        { failed := policy.fatalRun + probes
          refusedOpen := probes * policy.refusals interval + refused })
      (hphase : c.phase = .opened)
      (hexpiry : c.expiry =
        some (start + policy.opening interval probes * interval + policy.openDuration))

/-- The circuit after `n` such calls, while the operation of the next one runs. -/
inductive Strained (policy : Policy) (start : Instant) (interval : Span) (n : Nat) (o : Outcomes)
    (c : Circuit) : Prop where
  /-- The circuit is still in its first period. -/
  | counting (hfew : n < policy.fatalRun) (houtcomes : o = { failed := n })
      (hphase : c.phase = .closed) (hrequests : c.window.requests = n + 1)
      (hfailures : c.window.failures = n)
      (hexpiry : c.expiry = some (start + policy.closedWindow))
  /-- The operation is a probe. -/
  | probing (probes : Nat)
      (hcalls : n = policy.opening interval probes + policy.refusals interval)
      (houtcomes : o =
        { failed := policy.fatalRun + probes
          refusedOpen := probes * policy.refusals interval + policy.refusals interval })
      (hphase : c.phase = .halfOpen)

theorem battered_fresh (h : fresh? policy start = some c) :
    Battered policy start interval 0 {} c := by
  obtain ⟨-, rfl⟩ := fresh?_eq_some h
  exact .counting Policy.fatalRun_pos rfl rfl rfl rfl rfl

/-- In the first period the counters are not at their cap. -/
theorem bump_of_few (hsound : policy.Sound name) (hfew : n < policy.fatalRun) :
    Window.bump n = n + 1 :=
  Nat.min_eq_left (Nat.le_trans hfew hsound.fatalRun_le)

/-- In the first period the window does not run out. -/
theorem not_due_of_few (hwindow : policy.fatalRun * interval < policy.closedWindow)
    (hfew : n ≤ policy.fatalRun) (hphase : c.phase = .closed)
    (hexpiry : c.expiry = some (start + policy.closedWindow)) :
    c.isDue (start + n * interval) = false := by
  have hearly : start + n * interval < start + policy.closedWindow :=
    Nat.add_lt_add_left (Nat.lt_of_le_of_lt (Nat.mul_le_mul_right interval hfew) hwindow) start
  rw [← Bool.not_eq_true, isDue_closed hphase hexpiry]
  exact Nat.not_le.2 hearly

/-- The next call is refused because the circuit is open, or its operation
runs. -/
theorem Battered.ask (h : Battered policy start interval n o c) (hsound : policy.Sound name)
    (hinterval : 0 < interval) (hwindow : policy.fatalRun * interval < policy.closedWindow) :
    ∃ c' change, c.evaluate policy (start + n * interval) = .done c' change ∧
      (c'.allow policy = .error .opened ∧
          Battered policy start interval (n + 1) (o.refuse .opened) c' ∨
        ∃ c'', c'.allow policy = .ok c'' ∧ Strained policy start interval n o c'') := by
  cases h with
  | counting hfew houtcomes hphase hrequests hfailures hexpiry =>
    have hdue := not_due_of_few hwindow (Nat.le_of_lt hfew) hphase hexpiry
    refine ⟨c, none, evaluate_of_not_due hdue, .inr ⟨_, allow_closed policy hphase, ?_⟩⟩
    exact .counting hfew houtcomes hphase
      ((congrArg Window.bump hrequests).trans (bump_of_few hsound hfew)) hfailures hexpiry
  | opened probes refused hcalls hrefused houtcomes hphase hexpiry =>
    have hnow : start + n * interval =
        start + policy.opening interval probes * interval + refused * interval := by
      rw [hcalls, Nat.add_mul, Nat.add_assoc]
    have hdue : c.isDue (start + n * interval) = true ↔ policy.refusals interval ≤ refused := by
      rw [isDue_opened hphase hexpiry, Policy.refusals_le_iff hinterval, hnow]
      exact Nat.add_le_add_iff_left
    rcases Nat.lt_or_eq_of_le hrefused with hmore | rfl
    · have hnot : c.isDue (start + n * interval) = false := by
        rw [← Bool.not_eq_true, hdue]
        exact Nat.not_le.2 hmore
      refine ⟨c, none, evaluate_of_not_due hnot, .inl ⟨by simp only [allow, hphase], ?_⟩⟩
      refine .opened probes (refused + 1) (by rw [hcalls, Nat.add_assoc]) hmore ?_ hphase hexpiry
      rw [houtcomes]
      rfl
    · exact ⟨_, _, evaluate_of_due_opened hphase (hdue.2 (Nat.le_refl _)),
        .inr ⟨_, allow_halfOpen rfl hsound.probeLimit_pos, .probing probes hcalls houtcomes rfl⟩⟩

/-- The operation fails one interval later, and the circuit counts it or opens. -/
theorem Strained.finish (h : Strained policy start interval n o c) (hsound : policy.Sound name)
    (hwindow : policy.fatalRun * interval < policy.closedWindow)
    (hfits : policy.Fits (start + (n + 1) * interval)) :
    c.evaluate policy (start + (n + 1) * interval) = .done c none ∧
      ∃ c' change, c.settle policy (start + (n + 1) * interval) false = .done c' change ∧
        Battered policy start interval (n + 1) (o.complete false) c' := by
  cases h with
  | counting hfew houtcomes hphase hrequests hfailures hexpiry =>
    refine ⟨evaluate_of_not_due (not_due_of_few hwindow hfew hphase hexpiry), ?_⟩
    have hrequests' : (c.record false).window.requests = n + 1 := hrequests
    have hfailures' : (c.record false).window.failures = n + 1 :=
      (congrArg Window.bump hfailures).trans (bump_of_few hsound hfew)
    have htrips := shouldTrip_of_all hsound (Nat.lt_of_lt_of_eq n.succ_pos hrequests'.symm)
      (hfailures'.trans hrequests'.symm)
    rw [hrequests'] at htrips
    have hverdict : (c.record false).verdict policy false =
        if shouldTrip policy (c.record false).window then some .opened else none := by
      simp [verdict, record, hphase]
    rcases Nat.lt_or_eq_of_le (show n + 1 ≤ policy.fatalRun from hfew) with hmore | hlast
    · rw [if_neg fun htrip => Nat.not_le.2 hmore (htrips.1 htrip)] at hverdict
      rw [settle_eq_turn, hverdict]
      refine ⟨_, _, rfl, .counting hmore ?_ hphase hrequests' hfailures' hexpiry⟩
      rw [houtcomes]
      rfl
    · rw [if_pos (htrips.2 (Nat.le_of_eq hlast.symm))] at hverdict
      refine ⟨_, _, settle_of_verdict_opened hfits hverdict,
        .opened 0 0 (by simpa using hlast) (Nat.zero_le _) ?_ rfl ?_⟩
      · rw [houtcomes, ← hlast]
        simp [Outcomes.complete]
      · rw [hlast, Policy.opening_zero]
  | probing probes hcalls houtcomes hphase =>
    have hcalls' : n + 1 = policy.opening interval (probes + 1) := by
      rw [hcalls, Policy.opening_succ]
    have hverdict : (c.record false).verdict policy false = some .opened := by
      simp [verdict, record, hphase]
    refine ⟨evaluate_halfOpen hphase, _, _, settle_of_verdict_opened hfits hverdict,
      .opened (probes + 1) 0 hcalls' (Nat.zero_le _) ?_ rfl ?_⟩
    · rw [houtcomes]
      simp [Outcomes.complete, Nat.succ_mul, Nat.add_assoc]
    · rw [hcalls']

/-- How many calls there were tells what became of them. -/
theorem Battered.tally (h : Battered policy start interval n o c) :
    (n ≤ policy.fatalRun → o = { failed := n }) ∧
      (policy.fatalRun < n →
        let q := (n - policy.fatalRun) / (policy.refusals interval + 1)
        o = { failed := policy.fatalRun + q, refusedOpen := n - policy.fatalRun - q }) := by
  cases h with
  | counting hfew houtcomes hphase hrequests hfailures hexpiry =>
    exact ⟨fun _ => houtcomes, fun hmany => absurd hmany (Nat.lt_asymm hfew)⟩
  | opened probes refused hcalls hrefused houtcomes hphase hexpiry =>
    have hpast : n - policy.fatalRun = refused + probes * (policy.refusals interval + 1) := by
      rw [hcalls, Policy.opening]
      omega
    refine ⟨fun hfew => ?_, fun _ => ?_⟩
    · rw [Nat.sub_eq_zero_of_le hfew] at hpast
      obtain ⟨hrefused_zero, hmul⟩ := Nat.add_eq_zero_iff.1 hpast.symm
      have hprobes : probes = 0 := (Nat.mul_eq_zero.1 hmul).resolve_right (Nat.succ_ne_zero _)
      rw [hprobes, hrefused_zero, Policy.opening_zero] at hcalls
      rw [houtcomes, hprobes, hrefused_zero, Nat.zero_mul, hcalls]
    · have hquotient : (n - policy.fatalRun) / (policy.refusals interval + 1) = probes := by
        rw [hpast, Nat.add_mul_div_right _ _ (Nat.succ_pos _),
          Nat.div_eq_of_lt (Nat.lt_succ_of_le hrefused), Nat.zero_add]
      have hrest : n - policy.fatalRun - probes = probes * policy.refusals interval + refused := by
        rw [hpast, Nat.mul_succ]
        omega
      simp only
      rw [hquotient, hrest]
      exact houtcomes

end Circuit

namespace Engine

/-! ## The breaker between two strides -/

/-- There is nothing to deliver; the methods under way, the operations that wait
and the circuit are those given. -/
structure Stands (policy : Policy) (frames : List Frame) (waiting : List Ticket) (c : Circuit)
    (e : Engine) : Prop where
  policy_eq : e.policy = policy
  frames_eq : e.frames = frames
  suspended_eq : e.suspended = waiting
  circuit_eq : e.circuit = c
  mailbox_eq : e.mailbox = {}

section

variable {policy : Policy} {frames : List Frame} {waiting : List Ticket} {c c' c'' : Circuit}
variable {change change' : Option Transition} {e : Engine} {now : Instant} {t : Ticket}

/-- A call is admitted. -/
theorem Stands.call_ok (h : e.Stands policy frames waiting c)
    (heval : c.evaluate policy now = .done c' change) (hallow : c'.allow policy = .ok c'') :
    ∃ r t, e.stepQuiet now .call = some r ∧ r.reply = .operating t ∧
      t.generation = c''.generation ∧
      r.engine.Stands policy (.operating t :: frames) waiting c'' := by
  obtain ⟨rfl, rfl, rfl, rfl, hmailbox⟩ := h
  have hstep : e.step now .call = some _ := congrArg some (call_of_ok heval hallow)
  have hfree : (e.mailbox.push change).held = false := by rw [Mailbox.held_push, hmailbox]
  exact ⟨_, _, stepQuiet_of_deliver hstep hfree rfl, rfl, rfl, rfl, rfl, rfl, rfl, rfl⟩

/-- A call is refused. -/
theorem Stands.call_error (h : e.Stands policy frames waiting c)
    (heval : c.evaluate policy now = .done c' change) {refusal : Refusal}
    (hallow : c'.allow policy = .error refusal) :
    ∃ r, e.stepQuiet now .call = some r ∧ r.reply = .refused refusal ∧
      r.engine.Stands policy frames waiting c' := by
  obtain ⟨rfl, rfl, rfl, rfl, hmailbox⟩ := h
  have hstep : e.step now .call = some _ := congrArg some (call_of_error heval hallow)
  have hfree : (e.mailbox.push change).held = false := by rw [Mailbox.held_push, hmailbox]
  exact ⟨_, stepQuiet_of_deliver hstep hfree rfl, rfl, rfl, rfl, rfl, rfl, rfl⟩

/-- The operation that runs waits. -/
theorem Stands.suspend (h : e.Stands policy (.operating t :: frames) waiting c) (now : Instant) :
    ∃ r, e.stepQuiet now .suspend = some r ∧ r.reply = .suspended t ∧
      r.engine.Stands policy frames (t :: waiting) c := by
  obtain ⟨rfl, hframes, rfl, rfl, hmailbox⟩ := h
  have hstep : e.step now .suspend =
      some { engine := { e with frames, suspended := t :: e.suspended }, reply := .suspended t } := by
    simp only [step, hframes]
  have hlisteners : listeners frames = listeners e.frames := by rw [hframes, listeners_operating]
  have hpauses : e.Pauses .suspend
      { engine := { e with frames, suspended := t :: e.suspended }, reply := .suspended t } :=
    ⟨⟨t, .inl ⟨rfl, rfl⟩⟩, ⟨_, _, rfl, hlisteners⟩, rfl⟩
  exact ⟨_, hpauses.stepQuiet_eq hstep, rfl, rfl, rfl, rfl, rfl, hmailbox⟩

/-- An operation that waits goes on. -/
theorem Stands.resume (h : e.Stands policy frames waiting c) (hmem : t ∈ waiting)
    (now : Instant) :
    ∃ r, e.stepQuiet now (.resume t) = some r ∧
      r.engine.Stands policy (.operating t :: frames) (waiting.erase t) c := by
  obtain ⟨rfl, rfl, rfl, rfl, hmailbox⟩ := h
  have hpauses : e.Pauses (.resume t)
      { engine := { e with suspended := e.suspended.erase t, frames := .operating t :: e.frames }
        reply := .operating t } :=
    ⟨⟨t, .inr ⟨rfl, rfl⟩⟩, ⟨_, _, rfl, listeners_operating t e.frames⟩, rfl⟩
  exact ⟨_, hpauses.stepQuiet_eq (if_pos hmem), rfl, rfl, rfl, rfl, hmailbox⟩

/-- The operation that runs ends in the period in which its call was admitted. -/
theorem Stands.finish (h : e.Stands policy (.operating t :: frames) waiting c) {success : Bool}
    (heval : c.evaluate policy now = .done c' change) (hcurrent : t.generation = c'.generation)
    (hsettle : c'.settle policy now success = .done c'' change') :
    ∃ r, e.stepQuiet now (.finish success) = some r ∧ r.reply = .completed success ∧
      r.engine.Stands policy frames waiting c'' := by
  obtain ⟨rfl, hframes, rfl, rfl, hmailbox⟩ := h
  have hreport : ({ e with frames } : Engine).report now t success
      (.answer (.completed success)) [] = some _ := report_of_current [] heval hcurrent hsettle
  have hstep := ((Ends.finish success hframes).step_eq now).trans hreport
  have hfree : ((e.mailbox.push change).push change').held = false := by
    rw [Mailbox.held_push, Mailbox.held_push, hmailbox]
  exact ⟨_, stepQuiet_of_deliver hstep hfree rfl, rfl, rfl, rfl, rfl, rfl, rfl⟩

end

end Engine

namespace Simulation

open Engine Circuit

variable {σ : Type} {host : Host σ} {engine : σ → Engine} {w : Workload} {seed : Nat}
variable {policy : Policy} {name : String} {start : Instant} {world : σ}

/-- The listener only returns: every move is at its end at once and takes no
time. -/
structure Host.Plain (host : Host σ) (engine : σ → Engine) : Prop
    extends host.Virtual engine where
  send : ∀ world move r, (engine world).stepQuiet (host.now world) move = some r →
    host.now (host.send move world).1 = host.now world ∧
      engine (host.send move world).1 = r.engine ∧ (host.send move world).2 = r.reply

theorem Host.quietHost_plain : CommandLine.quietHost.Plain Prod.snd where
  toVirtual := quietHost_virtual
  send := by
    intro world move r hstep
    simp only [CommandLine.quietHost] at hstep ⊢
    rw [hstep]
    exact ⟨rfl, rfl, rfl⟩

theorem Host.Plain.send_eq (h : host.Plain engine) {move : Move} {r : Response}
    (hstep : (engine world).stepQuiet (host.now world) move = some r) :
    ∃ after, host.send move world = (after, r.reply) ∧ host.now after = host.now world ∧
      engine after = r.engine := by
  obtain ⟨hnow, hengine, hreply⟩ := h.send world move r hstep
  exact ⟨_, Prod.ext rfl hreply, hnow, hengine⟩

variable {c c' c'' : Circuit} {change change' : Option Transition}

/-- The next call is admitted, and its operation waits. -/
theorem ask_of_ok (hhost : host.Plain engine) (hstands : (engine world).Stands policy [] [] c)
    (heval : c.evaluate policy (host.now world) = .done c' change)
    (hallow : c'.allow policy = .ok c'') (worker : Worker) (left : Nat) :
    ∃ after t,
      Worker.ask host world worker left =
        (after, { worker with left, activity := .operating t }) ∧
      host.now after = host.now world ∧ t.generation = c''.generation ∧
      (engine after).Stands policy [] [t] c'' := by
  obtain ⟨r, t, hcall, hreply, hgeneration, hruns⟩ := hstands.call_ok heval hallow
  obtain ⟨called, hsend, hnow, hengine⟩ := hhost.send_eq hcall
  rw [← hengine] at hruns
  obtain ⟨r', hsuspend, -, hwaits⟩ := hruns.suspend (host.now called)
  obtain ⟨after, hsend', hnow', hengine'⟩ := hhost.send_eq hsuspend
  rw [← hengine'] at hwaits
  refine ⟨after, t, ?_, hnow'.trans hnow, hgeneration, hwaits⟩
  rw [Worker.ask, hsend, hreply]
  simp only [hsend']

/-- The next call meets an open circuit. -/
theorem ask_of_error (hhost : host.Plain engine) (hstands : (engine world).Stands policy [] [] c)
    (heval : c.evaluate policy (host.now world) = .done c' change)
    (hallow : c'.allow policy = .error .opened) (worker : Worker) (left : Nat) :
    ∃ after,
      Worker.ask host world worker left =
        (after, { left, outcomes := worker.outcomes.refuse .opened, activity := .resting }) ∧
      host.now after = host.now world ∧ (engine after).Stands policy [] [] c' := by
  obtain ⟨r, hcall, hreply, hrefused⟩ := hstands.call_error heval hallow
  obtain ⟨after, hsend, hnow, hengine⟩ := hhost.send_eq hcall
  rw [← hengine] at hrefused
  refine ⟨after, ?_, hnow, hrefused⟩
  rw [Worker.ask, hsend, hreply]

/-- The operation that waits goes on and ends in the period in which its call was
admitted. -/
theorem finish_of_done (hhost : host.Plain engine) {t : Ticket} {success : Bool}
    (hstands : (engine world).Stands policy [] [t] c)
    (heval : c.evaluate policy (host.now world) = .done c' change)
    (hcurrent : t.generation = c'.generation)
    (hsettle : c'.settle policy (host.now world) success = .done c'' change') (worker : Worker) :
    ∃ after,
      Worker.finish host world worker t success =
        (after,
          { worker with outcomes := worker.outcomes.complete success, activity := .ready }) ∧
      host.now after = host.now world ∧ (engine after).Stands policy [] [] c'' := by
  obtain ⟨r, hresume, hruns⟩ := hstands.resume List.mem_cons_self (host.now world)
  obtain ⟨resumed, hsend, hnow, hengine⟩ := hhost.send_eq hresume
  rw [← hengine, List.erase_cons_head] at hruns
  rw [← hnow] at heval hsettle
  obtain ⟨r', hfinish, hreply, hended⟩ := hruns.finish heval hcurrent hsettle
  obtain ⟨after, hsend', hnow', hengine'⟩ := hhost.send_eq hfinish
  rw [← hengine'] at hended
  refine ⟨after, ?_, hnow'.trans hnow, hended⟩
  rw [hreply] at hsend'
  simp only [Worker.finish, hsend, hsend']

/-! ## The only worker -/

/-- The worker has made `n` calls and is at the next one, and the breaker stands as
they have left it. -/
inductive Perseveres (policy : Policy) (start : Instant) (w : Workload) (n : Nat) (e : Engine) :
    Worker → Prop where
  /-- About to make the next call. -/
  | ready {o : Outcomes} {c : Circuit} (hcalls : n ≤ w.calls)
      (hbattered : c.Battered policy start w.latency n o) (hstands : e.Stands policy [] [] c) :
      Perseveres policy start w n e { left := w.calls - n, outcomes := o }
  /-- The operation of the next call runs. -/
  | operating {o : Outcomes} {c : Circuit} {t : Ticket} (hcalls : n < w.calls)
      (hstrained : c.Strained policy start w.latency n o) (hcurrent : t.generation = c.generation)
      (hstands : e.Stands policy [] [t] c) :
      Perseveres policy start w n e
        { left := w.calls - (n + 1), outcomes := o, activity := .operating t }
  /-- The next call has been refused. -/
  | resting {o : Outcomes} {c : Circuit} (hcalls : n < w.calls)
      (hbattered : c.Battered policy start w.latency (n + 1) o) (hstands : e.Stands policy [] [] c) :
      Perseveres policy start w n e
        { left := w.calls - (n + 1), outcomes := o, activity := .resting }

variable {n : Nat} {worker : Worker}

/-- A worker that is awake makes its next call. -/
theorem Perseveres.ask (h : Perseveres policy start w n (engine world) worker)
    (hhost : host.Plain engine) (hsound : policy.Sound name) (hlatency : 0 < w.latency)
    (hwindow : policy.fatalRun * w.latency < policy.closedWindow)
    (hnow : host.now world = start + n * w.latency) (hawake : worker.sleeps = false)
    (hdone : worker.isDone = false) (success : Bool) :
    host.now (worker.stride host success world).1 = start + n * w.latency ∧
      Perseveres policy start w n (engine (worker.stride host success world).1)
        (worker.stride host success world).2 := by
  cases h with
  | operating hcalls hstrained hcurrent hstands => cases hawake
  | resting hcalls hbattered hstands => cases hawake
  | @ready o c hcalls hbattered hstands =>
    have hmore : n < w.calls := by simpa [Worker.isDone, Nat.sub_eq_zero_iff_le] using hdone
    have hleft : w.calls - n = w.calls - (n + 1) + 1 := by omega
    obtain ⟨c', change, heval, hnext⟩ := hbattered.ask hsound hlatency hwindow
    rw [← hnow] at heval
    rw [hleft]
    rcases hnext with ⟨hallow, hbattered'⟩ | ⟨c'', hallow, hstrained⟩
    · obtain ⟨after, hask, hsame, hstands'⟩ := ask_of_error hhost hstands heval hallow
        { left := w.calls - (n + 1) + 1, outcomes := o } (w.calls - (n + 1))
      simp only [Worker.stride, hask]
      exact ⟨hsame.trans hnow, .resting hmore hbattered' hstands'⟩
    · obtain ⟨after, t, hask, hsame, hcurrent, hstands'⟩ := ask_of_ok hhost hstands heval hallow
        { left := w.calls - (n + 1) + 1, outcomes := o } (w.calls - (n + 1))
      simp only [Worker.stride, hask]
      exact ⟨hsame.trans hnow, .operating hmore hstrained hcurrent hstands'⟩

/-- A worker that has slept is done with its call. -/
theorem Perseveres.wake (h : Perseveres policy start w n (engine world) worker)
    (hhost : host.Plain engine) (hsound : policy.Sound name)
    (hwindow : policy.fatalRun * w.latency < policy.closedWindow)
    (hfits : policy.Fits (start + w.calls * w.latency))
    (hnow : host.now world = start + (n + 1) * w.latency) (hsleeps : worker.sleeps = true) :
    host.now (worker.stride host false world).1 = start + (n + 1) * w.latency ∧
      Perseveres policy start w (n + 1) (engine (worker.stride host false world).1)
        (worker.stride host false world).2 := by
  cases h with
  | ready hcalls hbattered hstands => cases hsleeps
  | resting hcalls hbattered hstands =>
    exact ⟨hnow, .ready hcalls hbattered hstands⟩
  | @operating o c t hcalls hstrained hcurrent hstands =>
    have hlimit : start + (n + 1) * w.latency ≤ start + w.calls * w.latency :=
      Nat.add_le_add_left (Nat.mul_le_mul_right w.latency hcalls) start
    obtain ⟨heval, c', change, hsettle, hbattered⟩ :=
      hstrained.finish hsound hwindow (hfits.mono hlimit)
    rw [← hnow] at heval hsettle
    obtain ⟨after, hfinish, hsame, hstands'⟩ := finish_of_done hhost hstands heval hcurrent hsettle
      { left := w.calls - (n + 1), outcomes := o, activity := .operating t }
    simp only [Worker.stride, hfinish]
    exact ⟨hsame.trans hnow, .ready hcalls hbattered hstands'⟩

/-- The run has one worker, which has made `n` calls.  Each has taken one latency, and
so does a sleep. -/
structure Alone (host : Host σ) (engine : σ → Engine) (policy : Policy) (start : Instant)
    (w : Workload) (n : Nat) (worker : Worker) (run : Run σ) (active : List Worker) : Prop where
  everyone_eq : run.everyone active = [worker]
  now_eq : host.now run.world = start + n * w.latency
  wake_eq : ∀ s ∈ run.sleepers, s.wake = start + (n + 1) * w.latency
  retired : ∀ worker ∈ run.retired, worker.isDone = true
  perseveres : Perseveres policy start w n (engine run.world) worker

section

variable {run : Run σ} {rest : List Worker} {only : Worker}

theorem Alone.stride (h : Alone host engine policy start w n only run (worker :: rest))
    (hhost : host.Plain engine) (hsound : policy.Sound name) (hlatency : 0 < w.latency)
    (hwindow : policy.fatalRun * w.latency < policy.closedWindow)
    (hdone : worker.isDone = false) (hawake : worker.sleeps = false) :
    ∃ next, Alone host engine policy start w n next (run.stride host w seed worker).1
      ((run.stride host w seed worker).2 :: rest) := by
  obtain ⟨heveryone, hnow, hwake, hretired, hperseveres⟩ := h
  obtain ⟨rfl, hothers⟩ := List.cons_eq_cons.1 heveryone
  obtain ⟨hnow', hnext⟩ := hperseveres.ask hhost hsound hlatency hwindow hnow hawake hdone
    (!w.fails seed run.operations)
  exact ⟨_, congrArg (List.cons _) hothers, hnow', hwake, hretired, hnext⟩

theorem Alone.sleep (h : Alone host engine policy start w n only run (worker :: rest)) :
    Alone host engine policy start w n only
      { run with
        sleepers := run.sleepers ++ [{ wake := host.now run.world + w.latency, worker }] } rest := by
  obtain ⟨heveryone, hnow, hwake, hretired, hperseveres⟩ := h
  have hperm := run.everyone_sleep { wake := host.now run.world + w.latency, worker } rest
  rw [heveryone] at hperm
  refine ⟨List.perm_singleton.1 hperm.symm, hnow, ?_, hretired, hperseveres⟩
  rw [List.forall_mem_append, List.forall_mem_singleton]
  refine ⟨hwake, ?_⟩
  simp only
  rw [hnow, Nat.succ_mul, Nat.add_assoc]

theorem Alone.retire (h : Alone host engine policy start w n only run (worker :: rest))
    (hdone : worker.isDone = true) :
    Alone host engine policy start w n only { run with retired := worker :: run.retired } rest := by
  obtain ⟨heveryone, hnow, hwake, hretired, hperseveres⟩ := h
  have hperm := run.everyone_retire worker rest
  rw [heveryone] at hperm
  exact ⟨List.perm_singleton.1 hperm.symm, hnow, hwake, List.forall_mem_cons.2 ⟨hdone, hretired⟩,
    hperseveres⟩

theorem Alone.wake {s : Sleeper} {sleepers : List Sleeper}
    (h : Alone host engine policy start w n only run []) (hhost : host.Plain engine)
    (hsound : policy.Sound name) (hwindow : policy.fatalRun * w.latency < policy.closedWindow)
    (hfits : policy.Fits (start + w.calls * w.latency))
    (hfails : ∀ number, w.fails seed number = true) (hsleepers : run.sleepers = s :: sleepers)
    (hsleeps : s.worker.sleeps = true) :
    let woken := { run with world := host.sleepUntil s.wake run.world, sleepers }
    ∃ next, Alone host engine policy start w (n + 1) next (woken.stride host w seed s.worker).1
      [(woken.stride host w seed s.worker).2] := by
  obtain ⟨heveryone, hnow, hwake, hretired, hperseveres⟩ := h
  rw [Run.everyone_wake hsleepers] at heveryone
  obtain ⟨rfl, hothers⟩ := List.cons_eq_cons.1 heveryone
  have hnone : sleepers = [] := List.map_eq_nil_iff.1 (List.append_eq_nil_iff.1 hothers).1
  have hmoved : host.now (host.sleepUntil s.wake run.world) = start + (n + 1) * w.latency := by
    rw [hhost.now_sleep, hnow, hwake s (by simp [hsleepers])]
    exact Nat.max_eq_right (Nat.add_le_add_left (Nat.mul_le_mul_right _ n.le_succ) _)
  rw [← hhost.engine_sleep s.wake run.world] at hperseveres
  obtain ⟨hnow', hnext⟩ := hperseveres.wake hhost hsound hwindow hfits hmoved hsleeps
  intro woken
  have hfailed : (!w.fails seed woken.operations) = false := by rw [hfails]; rfl
  rw [← hfailed] at hnow' hnext
  refine ⟨_, congrArg (List.cons _) hothers, hnow', ?_, hretired, hnext⟩
  have hempty : (woken.stride host w seed s.worker).1.sleepers = [] := hnone
  simp [hempty]

end

theorem keeps_alone (hhost : host.Plain engine) (hsound : policy.Sound name)
    (hlatency : 0 < w.latency) (hwindow : policy.fatalRun * w.latency < policy.closedWindow)
    (hfits : policy.Fits (start + w.calls * w.latency))
    (hfails : ∀ number, w.fails seed number = true) :
    Run.Keeps host w seed fun run active =>
      ∃ n worker, Alone host engine policy start w n worker run active where
  stride := by
    rintro run worker rest ⟨n, only, h⟩ hdone hawake
    have hsleeps : worker.sleeps = false := by simpa [Nat.pos_iff_ne_zero.1 hlatency] using hawake
    exact ⟨n, h.stride hhost hsound hlatency hwindow hdone hsleeps⟩
  sleep := by
    rintro run worker rest ⟨n, only, h⟩ - -
    exact ⟨n, only, h.sleep⟩
  retire := by
    rintro run worker rest ⟨n, only, h⟩ hdone
    exact ⟨n, only, h.retire hdone⟩
  wake := by
    rintro run s sleepers ⟨n, only, h⟩ hsleepers hsleeps
    exact ⟨n + 1, h.wake hhost hsound hwindow hfits hfails hsleepers hsleeps⟩

/-- What becomes of the calls of one worker when all operations fail, on a breaker
just built and with a listener that only returns.  `m` calls fail and open the
circuit; from then on every open period refuses `c` calls, and one more fails as
a probe. -/
theorem outcomes_of_dead_dependency (host : Host σ) (engine : σ → Engine) (w : Workload)
    (seed : Nat) (world : σ) (name : String) (policy : Policy) (audience : Audience)
    (hhost : host.Plain engine) (hsound : policy.Sound name)
    (hnew : Engine.new? name policy audience (host.now world) = some (engine world))
    (hfits : policy.Fits (host.now world + w.calls * w.latency)) (halone : w.concurrency = 1)
    (hrate : Binary64.one.le w.failureRate = true) (hlatency : 0 < w.latency)
    (hwindow : max 1 policy.minRequests * w.latency < policy.closedWindow) :
    let m := max 1 policy.minRequests
    let c := policy.openDuration ⌈/⌉ w.latency
    let q := (w.calls - m) / (c + 1)
    let final := run host w seed world
    final.panicked = none ∧ (w.calls ≤ m → final.outcomes = { failed := w.calls }) ∧
      (m < w.calls → final.outcomes = { failed := m + q, refusedOpen := w.calls - m - q }) := by
  intro m c q final
  have hcrew : 0 < w.concurrency := by rw [halone]; decide
  have hworkers : newWorkers w = [{ left := w.calls }] := by
    simp [newWorkers, halone, Workload.share, List.range_one, Nat.mod_one]
  obtain ⟨circuit, hfresh, hengine⟩ := Option.map_eq_some_iff.1 hnew
  have hstart : Alone host engine policy (host.now world) w 0 { left := w.calls } { world }
      (newWorkers w) := by
    refine ⟨by simp [Run.everyone, hworkers], by simp, by simp, by simp, ?_⟩
    refine .ready (Nat.zero_le _) (Circuit.battered_fresh hfresh) ?_
    rw [← hengine]
    exact ⟨rfl, rfl, rfl, rfl, rfl⟩
  obtain ⟨⟨n, worker, heveryone, -, -, hretired, hperseveres⟩, hsleepers⟩ :=
    run_induction hcrew
      (keeps_alone hhost hsound hlatency hwindow hfits (Workload.fails_eq_true hrate seed))
      ⟨0, _, hstart⟩
  rw [Run.everyone, hsleepers, List.map_nil, List.nil_append, List.nil_append] at heveryone
  have hdone : worker.isDone = true := hretired worker (heveryone ▸ List.mem_singleton_self _)
  have houtcomes : final.outcomes = worker.outcomes := by
    rw [Run.outcomes, heveryone]
    rfl
  have hpanicked : final.panicked = none ↔ worker.hasPanicked = false := by
    rw [← unharmed_iff final (.refl _), heveryone, List.forall_mem_singleton]
  rw [hpanicked, houtcomes]
  cases hperseveres with
  | operating hcalls hstrained hcurrent hstands => cases hdone
  | resting hcalls hbattered hstands => cases hdone
  | ready hcalls hbattered hstands =>
    have hall : n = w.calls := by
      have hnone : w.calls - n = 0 := by simpa [Worker.isDone] using hdone
      omega
    rw [hall] at hbattered
    exact ⟨rfl, hbattered.tally⟩

/-- Two calls open the circuit.  The open duration is no multiple of the latency:
three calls are refused, a probe fails, and the last two calls are refused
again. -/
theorem outcomes_of_dead_dependency_reopened :
    ∃ e ∈ Engine.new? "db" { minRequests := 2, openDuration := 10 } .client 0,
      let final := run CommandLine.quietHost
        { calls := 8, concurrency := 1, failureRate := .one, latency := 4 } 0 (0, e)
      final.panicked = none ∧ final.outcomes = { failed := 3, refusedOpen := 5 } := by
  have hsound : Policy.Sound "db" { minRequests := 2, openDuration := 10 } :=
    ⟨by decide +kernel, by decide, by decide⟩
  have hfits : Policy.Fits { minRequests := 2, openDuration := 10 } (0 + 8 * 4) := by decide
  obtain ⟨e, hnew⟩ : ∃ e, Engine.new? "db" { minRequests := 2, openDuration := 10 } .client 0 =
      some e := ⟨_, rfl⟩
  obtain ⟨hunharmed, -, hmany⟩ := outcomes_of_dead_dependency CommandLine.quietHost Prod.snd
    { calls := 8, concurrency := 1, failureRate := .one, latency := 4 } 0 (0, e) "db" _ .client
    Host.quietHost_plain hsound hnew hfits rfl (by decide +kernel) (by decide) (by decide)
  exact ⟨e, hnew, hunharmed, hmany (by decide)⟩

end Simulation

end Breaker
