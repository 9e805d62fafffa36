import Breaker.Proofs.Run

/-!
# Delivery in order

The changes of a run are read off the phases that its stages pass through, and
what the listener was told is read off the replies.  Neither looks at the
mailbox, which stands between the two: a change is put into it when it happens,
and taken out when the listener is called.

There are three groups.

* The changes.  `Path` says that each change starts where the one before it
  ended, and `Took.edge` that there are only five of them.
* The mailbox.  `Hands` is what a move does to it when the clock can hold every
  deadline: it puts the changes in and begins a delivery, or the listener
  returns or panics, or it leaves the mailbox alone.  All facts about a stage
  follow from these four cases.
* The run.  `Orderly` is the invariant.  Its `held` is what keeps a method that
  the listener calls from delivering: the mailbox is held as long as an
  invocation of the listener is under way.

A panic of the library loses a change, so the clock must hold the deadlines.  A
panic of the listener loses nothing but the transition that it was told.
-/

namespace Breaker

/-- The changes lead from the phase `p` to the phase `q`. -/
def Path (p : Phase) : List Transition → Phase → Prop
  | [], q => p = q
  | t :: rest, q => t.source = p ∧ Path t.target rest q

theorem Path.append {p q r : Phase} {ts us : List Transition} (h : Path p ts q)
    (hrest : Path q us r) : Path p (ts ++ us) r := by
  induction ts generalizing p with
  | nil =>
    cases h
    exact hrest
  | cons t ts ih => exact ⟨h.1, ih h.2⟩

theorem path_change (p q : Phase) : Path p (p.change q).toList q := by
  unfold Phase.change
  split
  · assumption
  · exact ⟨rfl, rfl⟩

/-- The changes that a circuit can make. -/
def Phase.edges : List Transition :=
  [{ source := .closed, target := .opened }, { source := .opened, target := .halfOpen },
    { source := .halfOpen, target := .closed }, { source := .halfOpen, target := .opened },
    { source := .opened, target := .closed }]

/-- Only the way from closed to half open is missing. -/
theorem Phase.mem_edges {p q : Phase} (h : p = .closed → q ≠ .halfOpen) :
    ∀ t ∈ (p.change q).toList, t ∈ Phase.edges := by
  cases p <;> cases q <;> simp_all [Phase.change, Phase.edges]

namespace Circuit

/-- Time alone does not open a closed circuit. -/
theorem evaluate_closed {policy : Policy} {now : Instant} {c : Circuit} (h : c.phase = .closed) :
    (c.evaluate policy now).circuit.phase = .closed := by
  rw [evaluate_eq_turn]
  by_cases hdue : c.isDue now = true
  · rw [lapse, if_pos hdue, if_pos h]
    exact (circuit_turn_some policy now .closed c).1
  · rw [lapse, if_neg hdue, turn_none]
    exact h

/-- An outcome opens a closed circuit, or leaves it closed. -/
theorem settle_closed {policy : Policy} {now : Instant} {success : Bool} {c : Circuit}
    (h : c.phase = .closed) : (c.settle policy now success).circuit.phase ≠ .halfOpen := by
  have hphase : (c.record success).phase = .closed := h
  rw [settle_eq_turn]
  cases hverdict : (c.record success).verdict policy success with
  | none => simp [Outcome.circuit, hphase]
  | some phase =>
    rw [(circuit_turn_some policy now phase _).1]
    cases success with
    | true => simp [verdict, hphase] at hverdict
    | false =>
      simp only [verdict, hphase] at hverdict
      split at hverdict <;> cases hverdict
      simp

theorem evaluate_change {policy : Policy} {now : Instant} {c c' : Circuit}
    {change : Option Transition} (h : c.evaluate policy now = .done c' change) :
    change = c.phase.change c'.phase := by
  rw [evaluate_eq_turn] at h
  exact turn_eq_done h

theorem settle_change {policy : Policy} {now : Instant} {success : Bool} {c c' : Circuit}
    {change : Option Transition} (h : c.settle policy now success = .done c' change) :
    change = c.phase.change c'.phase := by
  rw [settle_eq_turn] at h
  exact turn_eq_done (c := c.record success) h

end Circuit

namespace Engine

/-! ## Changes and invocations -/

/-- The changes of phase in a stage: what was due, then what the move did. -/
def Stage.changes (s : Stage) : List Transition :=
  (s.before.circuit.phase.change (s.before.evaluated s.now s.move).phase).toList ++
    ((s.before.evaluated s.now s.move).phase.change s.response.engine.circuit.phase).toList

/-- The transition that a reply hands to the listener, if it does. -/
def toldBy : Reply → List Transition
  | .listening t => [t]
  | _ => []

/-- All changes of phase in a run, in order. -/
def Run.changes (run : Run) : List Transition := run.stages.flatMap Stage.changes

/-- All invocations of the listener in a run, in the order of their starts. -/
def Run.told (run : Run) : List Transition :=
  run.stages.flatMap fun s => toldBy s.response.reply

theorem Run.changes_snoc (run : Run) (s : Stage) :
    (run.snoc s).changes = run.changes ++ s.changes := by
  simp [Run.changes, Run.snoc, List.flatMap_append]

theorem Run.told_snoc (run : Run) (s : Stage) :
    (run.snoc s).told = run.told ++ toldBy s.response.reply := by
  simp [Run.told, Run.snoc, List.flatMap_append]

/-- Is the frame an invocation of the listener? -/
def isListening : Frame → Bool
  | .listening _ _ => true
  | .operating _ => false

/-- How many invocations of the listener are under way. -/
def listeners (frames : List Frame) : Nat := frames.countP isListening

@[simp] theorem listeners_listening (t : Transition) (sequel : Sequel) (frames : List Frame) :
    listeners (.listening t sequel :: frames) = listeners frames + 1 := by
  simp [listeners, List.countP_cons, isListening]

@[simp] theorem listeners_operating (t : Ticket) (frames : List Frame) :
    listeners (.operating t :: frames) = listeners frames := by
  simp [listeners, isListening]

theorem Stage.path_changes (s : Stage) :
    Path s.before.circuit.phase s.changes s.response.engine.circuit.phase :=
  (path_change _ _).append (path_change _ _)

theorem Works.ne_halfOpen {e : Engine} {now : Instant} {move : Move} {c c' : Circuit}
    (h : e.Works now move c c') (hphase : c.phase = .closed) : c'.phase ≠ .halfOpen := by
  cases h with
  | keeps hmove hstale => simp [hphase]
  | allows hmove hallow => simp [Circuit.allow_eq_ok hallow, hphase]
  | settles hending hcurrent => exact Circuit.settle_closed hphase
  | resets hmove =>
    rw [Circuit.reset_eq_turn, (Circuit.circuit_turn_some _ _ _ _).1]
    simp

theorem evaluated_closed {e : Engine} {now : Instant} {move : Move}
    (h : e.circuit.phase = .closed) : (e.evaluated now move).phase = .closed := by
  unfold evaluated
  split
  · exact Circuit.evaluate_closed h
  · exact h

/-- No stage makes any other change than those five. -/
theorem Took.mem_edges {e : Engine} {now : Instant} {move : Move} {r : Response}
    (h : e.Took now move r) :
    ∀ t ∈ Stage.changes { before := e, now, move, response := r }, t ∈ Phase.edges := by
  intro t ht
  rcases List.mem_append.1 ht with hdue | hdone
  · refine Phase.mem_edges (fun hclosed => ?_) t hdue
    have hstill : (e.evaluated now move).phase = .closed := evaluated_closed hclosed
    simp [hstill]
  · exact Phase.mem_edges h.works.ne_halfOpen t hdone

/-! ## The mailbox in one stage -/

/-- What a move does to the mailbox, when the clock can hold every deadline. -/
inductive Hands (e : Engine) (changes : List Transition) : Move → Response → Prop where
  /-- A method puts its changes in and begins a delivery. -/
  | delivers {move : Move} {e' : Engine} {sequel : Sequel}
      (hpending : e'.mailbox.pending = e.mailbox.pending ++ changes)
      (hheld : e'.mailbox.held = e.mailbox.held)
      (hlisteners : listeners e'.frames = listeners e.frames)
      (hsequel : isProper sequel = true) (journal : List Entry) :
      Hands e changes move (e'.deliver sequel journal)
  /-- The listener returns, and the delivery goes on. -/
  | proceeds {t : Transition} {sequel : Sequel} {frames : List Frame}
      (hframes : e.frames = .listening t sequel :: frames) (hchanges : changes = [])
      (hsequel : isProper sequel = true) :
      Hands e changes .heard ({ e with frames }.follow sequel [] (Courier.proceed e.mailbox))
  /-- The listener panics, and the delivery is given up. -/
  | breaksOff {t : Transition} {sequel : Sequel} {frames : List Frame} (text : String)
      (hframes : e.frames = .listening t sequel :: frames) (hchanges : changes = []) :
      Hands e changes (.panic text)
        { engine := { e with frames, mailbox := e.mailbox.release }, reply := .panicked text }
  /-- An operation waits or goes on. -/
  | stays {move : Move} {r : Response} (hmove : move = .suspend ∨ ∃ t, move = .resume t)
      (hchanges : changes = []) (hmailbox : r.engine.mailbox = e.mailbox)
      (hlisteners : listeners r.engine.frames = listeners e.frames)
      (hreply : toldBy r.reply = [] ∧ returns r.reply = false) : Hands e changes move r

/-- A method that has changed the phase twice at most has put its changes into
the mailbox. -/
theorem pending_of_changes {e : Engine} (e' : Engine) (change change' : Option Transition)
    {now : Instant} {move : Move} {c : Circuit} (hevaluated : e.evaluated now move = c)
    (hchange : change = e.circuit.phase.change c.phase)
    (hchange' : change' = c.phase.change e'.circuit.phase)
    (hmailbox : e'.mailbox = (e.mailbox.push change).push change') {r : Response}
    (hcircuit : r.engine.circuit = e'.circuit) :
    e'.mailbox.pending =
      e.mailbox.pending ++ Stage.changes { before := e, now, move, response := r } := by
  rw [hmailbox, Mailbox.pending_push, Mailbox.pending_push, List.append_assoc]
  simp only [Stage.changes]
  rw [hcircuit, hevaluated, ← hchange, ← hchange']

/-- Such a method is about to begin a delivery from `e'`. -/
theorem hands_of_deliver {e : Engine} (e' : Engine) (change change' : Option Transition)
    {now : Instant} {move : Move} {c : Circuit} {sequel : Sequel}
    (hevaluated : e.evaluated now move = c)
    (hchange : change = e.circuit.phase.change c.phase)
    (hchange' : change' = c.phase.change e'.circuit.phase)
    (hmailbox : e'.mailbox = (e.mailbox.push change).push change')
    (hlisteners : listeners e'.frames = listeners e.frames) (hsequel : isProper sequel = true)
    (journal : List Entry) :
    e.Hands (Stage.changes { before := e, now, move, response := e'.deliver sequel journal }) move
      (e'.deliver sequel journal) := by
  refine .delivers ?_ ?_ hlisteners hsequel journal
  · exact pending_of_changes e' change change' hevaluated hchange hchange' hmailbox
      (deliver_keeps _ _ _).1
  · rw [hmailbox, Mailbox.held_push, Mailbox.held_push]

theorem Ends.listeners_eq {e e' : Engine} {move : Move} {t : Ticket} {success : Bool}
    {sequel : Sequel} (h : e.Ends move t success e' sequel) :
    e'.mailbox = e.mailbox ∧ listeners e'.frames = listeners e.frames := by
  cases h with
  | finish success hframes => simp [hframes]
  | panic text hframes => simp [hframes]
  | abandon hmem => exact ⟨rfl, rfl⟩

theorem changes_eq_nil {e : Engine} {now : Instant} {move : Move} {r : Response}
    (hevaluated : e.evaluated now move = e.circuit) (hcircuit : r.engine.circuit = e.circuit) :
    Stage.changes { before := e, now, move, response := r } = [] := by
  simp [Stage.changes, hevaluated, hcircuit]

theorem Took.hands {e : Engine} {now : Instant} {move : Move} {r : Response}
    (h : e.Took now move r) (hproper : e.Proper) (hfits : e.policy.Fits now) :
    e.Hands (Stage.changes { before := e, now, move, response := r }) move r := by
  cases h with
  | @queried c change heval view journal =>
    exact hands_of_deliver (e.accept c change) change none (evaluated_eq rfl heval)
      (Circuit.evaluate_change heval) (Phase.change_self _).symm (Mailbox.push_none _).symm rfl rfl
      journal
  | @refused c change refusal heval hallow journal =>
    exact hands_of_deliver (e.accept c change) change none (evaluated_eq rfl heval)
      (Circuit.evaluate_change heval) (Phase.change_self _).symm (Mailbox.push_none _).symm rfl rfl
      journal
  | @admitted c c' change heval hallow journal =>
    obtain rfl := Circuit.allow_eq_ok hallow
    exact hands_of_deliver
      { e.accept c change with
        circuit := { c with window := c.window.arrive }
        nextSerial := e.nextSerial + 1 }
      change none (evaluated_eq rfl heval) (Circuit.evaluate_change heval)
      (Phase.change_self _).symm (Mailbox.push_none _).symm rfl rfl journal
  | @reset c change hreset journal =>
    refine hands_of_deliver (c := e.circuit) (e.accept c change) none change rfl
      (Phase.change_self _).symm ?_ ?_ rfl rfl journal
    · rw [Circuit.reset_eq_turn] at hreset
      exact Circuit.turn_eq_done hreset
    · rw [Mailbox.push_none]
      rfl
  | cut hmove heval => exact absurd heval (Circuit.evaluate_ne_overflow hfits _ _)
  | resetCut hreset => exact absurd hreset (Circuit.reset_ne_overflow hfits _ _)
  | @ended move t success e' sequel c c' change change' hends heval hsettles journal =>
    obtain ⟨hmailbox, hlisteners⟩ := hends.listeners_eq
    refine hands_of_deliver ((e'.accept c change).accept c' change') change change'
      (hends.evaluated_eq heval) (Circuit.evaluate_change heval) ?_ ?_ hlisteners
      (hends.proper hproper).2 journal
    · rcases hsettles with ⟨-, rfl, rfl⟩ | ⟨-, hsettle⟩
      · exact (Phase.change_self _).symm
      · exact Circuit.settle_change hsettle
    · simp [accept, hmailbox]
  | endedCut hends heval journal => exact absurd heval (Circuit.evaluate_ne_overflow hfits _ _)
  | settledCut hends heval hcurrent hsettle journal =>
    exact absurd hsettle (Circuit.settle_ne_overflow hfits _ _ _)
  | @resumed t hmem =>
    refine .stays (.inr ⟨t, rfl⟩) (changes_eq_nil rfl rfl) rfl ?_ ⟨rfl, rfl⟩
    exact listeners_operating t e.frames
  | @suspended t frames hframes =>
    refine .stays (.inl rfl) (changes_eq_nil rfl rfl) rfl ?_ ⟨rfl, rfl⟩
    rw [hframes, listeners_operating]
  | @heard t sequel frames hframes =>
    have hsequel := hproper t sequel (hframes ▸ List.mem_cons_self)
    refine .proceeds hframes (changes_eq_nil rfl ?_) hsequel
    rw [(proceed_keeps { e with frames } sequel []).1]
  | @silenced t sequel frames text hframes =>
    refine .breaksOff text hframes (changes_eq_nil ?_ rfl)
    simp [evaluated, evaluates, ending, hframes]

/-! ### What follows from it -/

section

variable {e : Engine} {changes : List Transition} {move : Move} {r : Response}

/-- The end of a method calls no listener, and leaves the mailbox alone. -/
theorem conclude_quiet {sequel : Sequel} (hsequel : isProper sequel = true)
    (journal : List Entry) :
    toldBy (e.conclude sequel journal).reply = [] ∧
      (e.conclude sequel journal).engine.mailbox = e.mailbox ∧
      listeners (e.conclude sequel journal).engine.frames = listeners e.frames := by
  cases sequel with
  | operate t => exact ⟨rfl, rfl, listeners_operating t e.frames⟩
  | answer reply =>
    refine ⟨?_, rfl, rfl⟩
    cases reply with
    | listening t => cases hsequel
    | _ => rfl
  | refuse r => exact ⟨rfl, rfl, rfl⟩
  | unwind text => exact ⟨rfl, rfl, rfl⟩

/-- Nothing is lost, and the order is kept. -/
theorem Hands.balance (h : e.Hands changes move r) :
    e.mailbox.pending ++ changes = toldBy r.reply ++ r.engine.mailbox.pending := by
  cases h with
  | @delivers _ e' sequel hpending hheld hlisteners hsequel journal =>
    rw [← hpending]
    rcases deliver_cases e' sequel journal with ⟨t, rest, hmailbox, heq⟩ | ⟨-, heq⟩
    · rw [heq, hmailbox]
      rfl
    · obtain ⟨htold, hmailbox, -⟩ := conclude_quiet (e := e') hsequel journal
      rw [heq, htold, hmailbox]
      rfl
  | @proceeds t sequel frames hframes hchanges hsequel =>
    rw [hchanges, List.append_nil]
    rcases proceed_cases { e with frames } sequel [] with ⟨t', rest, hpending, heq⟩ | ⟨hnil, heq⟩
    · simp only at hpending
      rw [heq, hpending]
      rfl
    · obtain ⟨htold, hmailbox, -⟩ :=
        conclude_quiet (e := { e with frames, mailbox := {} }) hsequel []
      rw [heq, htold, hmailbox]
      exact hnil
  | breaksOff text hframes hchanges =>
    rw [hchanges, List.append_nil]
    rfl
  | stays hmove hchanges hmailbox hlisteners hreply =>
    rw [hchanges, hmailbox, hreply.1, List.append_nil]
    rfl

/-- The mailbox is held while an invocation of the listener is under way, and
there is at most one. -/
def Tended (e : Engine) : Prop := listeners e.frames = e.mailbox.held.toNat

theorem Hands.tended (h : e.Hands changes move r) (htended : e.Tended) : r.engine.Tended := by
  unfold Tended at htended ⊢
  cases h with
  | @delivers _ e' sequel hpending hheld hlisteners hsequel journal =>
    rw [← hheld, ← hlisteners] at htended
    rcases deliver_cases e' sequel journal with ⟨t, rest, hmailbox, heq⟩ | ⟨-, heq⟩
    · rw [hmailbox] at htended
      rw [heq, listeners_listening, htended]
      rfl
    · obtain ⟨-, hmailbox, hsame⟩ := conclude_quiet (e := e') hsequel journal
      rw [heq, hsame, hmailbox]
      exact htended
  | @proceeds t sequel frames hframes hchanges hsequel =>
    rw [hframes, listeners_listening] at htended
    have hnone : listeners frames = 0 := by
      have := e.mailbox.held.toNat_le
      omega
    rcases proceed_cases { e with frames } sequel [] with ⟨t', rest, hpending, heq⟩ | ⟨hnil, heq⟩
    · rw [heq, listeners_listening]
      exact htended
    · obtain ⟨-, hmailbox, hsame⟩ :=
        conclude_quiet (e := { e with frames, mailbox := {} }) hsequel []
      rw [heq, hsame, hmailbox]
      exact hnone
  | breaksOff text hframes hchanges =>
    rw [hframes, listeners_listening] at htended
    have := e.mailbox.held.toNat_le
    simp only [Mailbox.held_release, Bool.toNat_false]
    omega
  | stays hmove hchanges hmailbox hlisteners hreply =>
    rw [hmailbox, hlisteners]
    exact htended

/-- A method that returns outside the listener leaves nothing to deliver. -/
theorem Hands.drained (h : e.Hands changes move r) (htended : e.Tended)
    (hreturns : returns r.reply = true) (houtside : listeners r.engine.frames = 0) :
    r.engine.mailbox.pending = [] := by
  unfold Tended at htended
  cases h with
  | @delivers _ e' sequel hpending hheld hlisteners hsequel journal =>
    rw [← hheld, ← hlisteners] at htended
    rcases deliver_cases e' sequel journal with ⟨t, rest, -, heq⟩ | ⟨hidle, heq⟩
    · rw [heq] at hreturns
      cases hreturns
    · obtain ⟨-, hmailbox, hsame⟩ := conclude_quiet (e := e') hsequel journal
      rw [heq, hsame, htended] at houtside
      rw [heq, hmailbox]
      rcases hidle with hbusy | hnil
      · rw [hbusy] at houtside
        cases houtside
      · exact hnil
  | @proceeds t sequel frames hframes hchanges hsequel =>
    rcases proceed_cases { e with frames } sequel [] with ⟨t', rest, hpending, heq⟩ | ⟨hnil, heq⟩
    · rw [heq] at hreturns
      cases hreturns
    · rw [heq, (conclude_quiet (e := { e with frames, mailbox := {} }) hsequel []).2.1]
  | breaksOff text hframes hchanges => cases hreturns
  | stays hmove hchanges hmailbox hlisteners hreply =>
    rw [hreply.2] at hreturns
    cases hreturns

/-- A method outside the listener delivers what was left over first. -/
theorem Hands.oldest_first (h : e.Hands changes move r) (htended : e.Tended)
    (houtside : listeners e.frames = 0) {t : Transition} {rest : List Transition}
    (hleft : e.mailbox.pending = t :: rest) (hsuspend : move ≠ .suspend)
    (hresume : ∀ ticket, move ≠ .resume ticket) :
    r.reply = .listening t ∧ r.engine.mailbox.pending = rest ++ changes := by
  unfold Tended at htended
  cases h with
  | @delivers _ e' sequel hpending hheld hlisteners hsequel journal =>
    have hfree : e'.mailbox.held = false := by
      rw [houtside] at htended
      rw [hheld]
      exact Bool.toNat_eq_zero.1 htended.symm
    rw [hleft] at hpending
    rcases deliver_cases e' sequel journal with ⟨t', rest', hmailbox, heq⟩ | ⟨hidle, -⟩
    · rw [hmailbox] at hpending
      obtain ⟨rfl, rfl⟩ := List.cons.inj hpending
      rw [heq]
      exact ⟨rfl, rfl⟩
    · rw [hfree, hpending] at hidle
      simp at hidle
  | proceeds hframes hchanges hsequel =>
    rw [hframes, listeners_listening] at houtside
    cases houtside
  | breaksOff text hframes hchanges =>
    rw [hframes, listeners_listening] at houtside
    cases houtside
  | stays hmove hchanges hmailbox hlisteners hreply =>
    rcases hmove with rfl | ⟨ticket, rfl⟩
    · exact absurd rfl hsuspend
    · exact absurd rfl (hresume ticket)

/-- An invocation of the listener starts when none is under way, or when the
one under way has just returned. -/
theorem Hands.alone (h : e.Hands changes move r) (htended : e.Tended) {t : Transition}
    (hreply : r.reply = .listening t) : move = .heard ∨ listeners e.frames = 0 := by
  unfold Tended at htended
  cases h with
  | @delivers _ e' sequel hpending hheld hlisteners hsequel journal =>
    right
    rcases deliver_cases e' sequel journal with ⟨t', rest, hmailbox, -⟩ | ⟨-, heq⟩
    · rw [htended, ← hheld, hmailbox]
      rfl
    · have htold := (conclude_quiet (e := e') hsequel journal).1
      rw [← heq, hreply] at htold
      cases htold
  | proceeds hframes hchanges hsequel => exact .inl rfl
  | breaksOff text hframes hchanges => cases hreply
  | stays hmove hchanges hmailbox hlisteners htold =>
    rw [hreply] at htold
    cases htold.1

end

/-! ## Lives -/

section

variable {name : String} {policy : Policy} {audience : Audience} {start : Instant}
variable {schedule : List (Instant × Move)} {run : Run}

/-- What every move keeps. -/
structure Orderly (policy : Policy) (run : Run) : Prop where
  policy_eq : run.engine.policy = policy
  proper : run.engine.Proper
  balance : run.told ++ run.engine.mailbox.pending = run.changes
  path : Path .closed run.changes run.engine.circuit.phase
  edges : ∀ t ∈ run.changes, t ∈ Phase.edges
  tended : run.engine.Tended

theorem orderly_new {e : Engine} (h : new? name policy audience start = some e) :
    Orderly policy { engine := e } := by
  obtain ⟨hframes, -, hmailbox, hpolicy, hphase, -⟩ := new?_eq_some h
  refine ⟨hpolicy, proper_new h, ?_, hphase.symm, ?_, ?_⟩
  · simp [Run.told, Run.changes, hmailbox]
  · simp [Run.changes]
  · simp [Tended, hframes, hmailbox, listeners]

theorem Orderly.snoc {s : Stage} (h : Orderly policy run) (hbefore : run.engine = s.before)
    (hfits : policy.Fits s.now) (hvalid : s.Valid) : Orderly policy (run.snoc s) := by
  obtain ⟨hpolicy, hproper, hbalance, hpath, hedges, htended⟩ := h
  rw [hbefore] at hpolicy hproper hbalance hpath htended
  have took := step_took hvalid
  have hhands := took.hands hproper (hpolicy ▸ hfits)
  refine ⟨took.policy_eq.trans hpolicy, took.proper hproper, ?_, ?_, ?_, hhands.tended htended⟩
  · rw [Run.told_snoc, Run.changes_snoc, ← hbalance, List.append_assoc, List.append_assoc]
    exact congrArg (run.told ++ ·) hhands.balance.symm
  · rw [Run.changes_snoc]
    exact hpath.append s.path_changes
  · intro t ht
    rw [Run.changes_snoc] at ht
    rcases List.mem_append.1 ht with hold | hnew
    · exact hedges t hold
    · exact took.mem_edges t hnew

theorem orderly_of_life (hlife : life name policy audience start schedule = some run)
    (hfits : ∀ entry ∈ schedule, policy.Fits entry.1) : Orderly policy run :=
  life_induction (motive := Orderly policy) (fun _ hnew => orderly_new hnew)
    (fun _ s horderly hbefore hentry hvalid =>
      horderly.snoc hbefore (hfits (s.now, s.move) hentry) hvalid) hlife

/-- Delivery is in order, exactly once, and never nested.  At every point what
the listener was told, followed by what waits in the mailbox, are the changes
that the circuit made: a path along the five edges from closed to the phase
stored now.  Whatever the next move is,

* the listener is called when no other invocation of it is under way, or when
  that one has just returned;
* a method that returns outside the listener leaves the mailbox empty;
* a method that finds something left over from a panic of the listener tells
  that first, and what it adds itself comes last. -/
theorem told_append_pending (hlife : life name policy audience start schedule = some run)
    (hfits : ∀ entry ∈ schedule, policy.Fits entry.1) :
    run.told ++ run.engine.mailbox.pending = run.changes ∧
      Path .closed run.changes run.engine.circuit.phase ∧
      (∀ t ∈ run.changes, t ∈ Phase.edges) ∧
      listeners run.engine.frames ≤ 1 ∧
      ∀ now move r, policy.Fits now → run.engine.step now move = some r →
        (∀ t, r.reply = .listening t → move = .heard ∨ listeners run.engine.frames = 0) ∧
        (returns r.reply = true → listeners r.engine.frames = 0 →
          r.engine.mailbox.pending = []) ∧
        (∀ t rest, listeners run.engine.frames = 0 → run.engine.mailbox.pending = t :: rest →
          move ≠ .suspend → (∀ ticket, move ≠ .resume ticket) →
          r.reply = .listening t ∧ r.engine.mailbox.pending =
            rest ++ Stage.changes { before := run.engine, now, move, response := r }) := by
  have horderly := orderly_of_life hlife hfits
  have htended := horderly.tended
  refine ⟨horderly.balance, horderly.path, horderly.edges, ?_, ?_⟩
  · rw [htended]
    exact Bool.toNat_le _
  · intro now move r hnow hstep
    have hhands := (step_took hstep).hands horderly.proper (horderly.policy_eq ▸ hnow)
    refine ⟨?_, hhands.drained htended, ?_⟩
    · exact fun t hreply => hhands.alone htended hreply
    · intro t rest houtside hleft hsuspend hresume
      exact hhands.oldest_first htended houtside hleft hsuspend hresume

/-- The listener resets the breaker and panics: the change back to closed is
left over, and the next query delivers it. -/
theorem told_append_pending_leftover :
    ∃ run ∈ life "db" { minRequests := 1 } .client 0
        [(0, .call), (1, .finish false), (2, .reset), (3, .panic "listener")],
      run.told ++ run.engine.mailbox.pending = run.changes ∧
        run.told = [{ source := .closed, target := .opened }] ∧
        ∃ r ∈ run.engine.step 4 .query,
          r.reply = .listening { source := .opened, target := .closed } := by
  obtain ⟨run, hlife, htold, hpending, houtside, r, hstep, -⟩ :
      ∃ run ∈ life "db" { minRequests := 1 } .client 0
          [(0, .call), (1, .finish false), (2, .reset), (3, .panic "listener")],
        run.told = [{ source := .closed, target := .opened }] ∧
          run.engine.mailbox.pending = [{ source := .opened, target := .closed }] ∧
          listeners run.engine.frames = 0 ∧ ∃ r ∈ run.engine.step 4 .query, True := by
    decide +kernel
  obtain ⟨hbalance, -, -, -, hnext⟩ := told_append_pending hlife (by decide +kernel)
  obtain ⟨-, -, hfirst⟩ := hnext 4 .query r (by decide +kernel) hstep
  have hquery := hfirst _ _ houtside hpending Move.noConfusion fun _ => Move.noConfusion
  exact ⟨run, hlife, hbalance, htold, r, hstep, hquery.1⟩

end

end Engine

end Breaker
