import Breaker.Proofs.Run
import Mathlib.Data.Multiset.Filter

/-!
# The calls of a breaker

An account is what a breaker holds of its calls: the circuit, and the tickets
of the calls that are *waiting* (admitted, while the listener has control) or
*running* (their operation has been invoked and has not ended, whether it runs
or is suspended).  How methods nest is left out.

An `Event` is something that happens to one call, or the start of a
generation.  `Stage.events` lists the events of a stage.  It reads them off the
move, the engine that the move found and the reply, and never looks at the
counters or at the generation that a ticket carries.

* `Account.Happens`: what one event makes of an account;
* `Took.passes`: a move makes of the account what its events make of it, one
  after another.

## The order of the events of a stage

First comes the start of a generation by lapse of time, then what happens to
the call that the move is about, then the start of a generation that this leads
to, and last the invocation of the operation.
-/

namespace Breaker.Engine

/-- Something that happens to the call of that number, or to all of them. -/
inductive Event where
  /-- A generation began: a window rolled over, the phase changed, or a reset. -/
  | began
  /-- The call was let through. -/
  | admitted (n : Nat)
  /-- The operation of the call was invoked. -/
  | invoked (n : Nat)
  /-- A panic of the listener ended the call before its operation was invoked. -/
  | struck (n : Nat)
  /-- The operation of the call ended, well or badly, or was given up. -/
  | ended (n : Nat) (success : Bool)
  deriving DecidableEq, Repr

/-- The start of a generation, if one began between two circuits. -/
def turned (c c' : Circuit) : List Event :=
  if c.generation = c'.generation then [] else [.began]

theorem turned_of_generation_eq {c c' : Circuit} (h : c.generation = c'.generation) :
    turned c c' = [] := if_pos h

theorem mem_turned {c c' : Circuit} {event : Event} :
    event ∈ turned c c' ↔ event = .began ∧ c.generation ≠ c'.generation := by
  unfold turned
  split <;> simp_all

/-- The invocation of an operation, if a reply gives control to one. -/
def invoked : Reply → List Event
  | .operating t => [.invoked t.serial]
  | _ => []

/-- Does the evaluated circuit let the call pass? -/
def admits (e : Engine) (now : Instant) : Bool :=
  match e.circuit.evaluate e.policy now with
  | .done c _ => (c.allow e.policy).isOk
  | .overflow _ => false

/-- What happens to the call that a move is about, if it is about one. -/
def deed (e : Engine) (now : Instant) (move : Move) : List Event :=
  match move, e.frames with
  | .call, _ => if e.admits now then [.admitted e.nextSerial] else []
  | .panic _, .listening _ (.operate t) :: _ => [.struck t.serial]
  | move, _ =>
    match e.ending move with
    | some (t, success) => [.ended t.serial success]
    | none => []

/-- The invocation that a move leads to, if any.  To resume an operation is not
to invoke it. -/
def invocation (move : Move) (reply : Reply) : List Event :=
  match move with
  | .resume _ => []
  | _ => invoked reply

theorem exists_of_mem_invocation {move : Move} {reply : Reply} {event : Event}
    (h : event ∈ invocation move reply) : ∃ n, event = .invoked n := by
  unfold invocation invoked at h
  split at h
  · cases h
  · split at h
    · exact ⟨_, List.mem_singleton.1 h⟩
    · cases h

/-- All that happens in a stage, in order. -/
def Stage.events (s : Stage) : List Event :=
  turned s.before.circuit (s.before.evaluated s.now s.move) ++ s.before.deed s.now s.move ++
    turned (s.before.evaluated s.now s.move) s.response.engine.circuit ++
    invocation s.move s.response.reply

/-- What is neither the start of a generation nor the invocation of an operation
is what happens to the call that the move is about. -/
theorem Stage.mem_deed_of_mem_events {s : Stage} {event : Event} (h : event ∈ s.events)
    (hbegan : event ≠ .began) (hinvoked : ∀ n, event ≠ .invoked n) :
    event ∈ s.before.deed s.now s.move := by
  rw [Stage.events, List.mem_append, List.mem_append, List.mem_append] at h
  rcases h with ((hturned | hdeed) | hturned) | hinvocation
  · exact absurd (mem_turned.1 hturned).1 hbegan
  · exact hdeed
  · exact absurd (mem_turned.1 hturned).1 hbegan
  · obtain ⟨n, hn⟩ := exists_of_mem_invocation hinvocation
    exact absurd hn (hinvoked n)

/-! ## Accounts -/

/-- The circuit, the calls that wait and run, and the number of the next call. -/
structure Account where
  circuit : Circuit
  waiting : Multiset Ticket
  running : Multiset Ticket
  nextSerial : Nat

/-- The call whose operation is invoked when the delivery is over. -/
def held? : Sequel → Option Ticket
  | .operate t => some t
  | _ => none

/-- The calls that frames hold back until the listener has returned. -/
def waitingIn (frames : List Frame) : Multiset Ticket :=
  frames.filterMap fun
    | .listening _ sequel => held? sequel
    | .operating _ => none

/-- The calls whose operation runs in a frame. -/
def runningIn (frames : List Frame) : Multiset Ticket :=
  frames.filterMap fun
    | .listening _ _ => none
    | .operating t => some t

@[simp] theorem waitingIn_listening (t : Transition) (sequel : Sequel) (frames : List Frame) :
    waitingIn (.listening t sequel :: frames) =
      ((held? sequel).toList : Multiset Ticket) + waitingIn frames := by
  cases h : held? sequel <;> simp [waitingIn, h]

@[simp] theorem waitingIn_operating (t : Ticket) (frames : List Frame) :
    waitingIn (.operating t :: frames) = waitingIn frames := rfl

@[simp] theorem runningIn_listening (t : Transition) (sequel : Sequel) (frames : List Frame) :
    runningIn (.listening t sequel :: frames) = runningIn frames := rfl

@[simp] theorem runningIn_operating (t : Ticket) (frames : List Frame) :
    runningIn (.operating t :: frames) = t ::ₘ runningIn frames := rfl

/-- The calls of an engine. -/
def account (e : Engine) : Account :=
  { circuit := e.circuit
    waiting := waitingIn e.frames
    running := runningIn e.frames + (e.suspended : Multiset Ticket)
    nextSerial := e.nextSerial }

namespace Account

/-- The calls in flight: admitted, and not ended. -/
def inFlight (a : Account) : Multiset Ticket := a.waiting + a.running

/-- What one event makes of an account.  A call is admitted where the circuit
has room for it, and an ended call is written into the window when it carries
the current generation. -/
inductive Happens (policy : Policy) : Account → Event → Account → Prop where
  | began {a : Account} {c : Circuit} (hgeneration : c.generation = a.circuit.generation + 1)
      (hwindow : c.window = {}) : Happens policy a .began { a with circuit := c }
  | admitted {a : Account}
      (hallow : a.circuit.allow policy =
        .ok { a.circuit with window := a.circuit.window.arrive }) :
      Happens policy a (.admitted a.nextSerial)
        { circuit := { a.circuit with window := a.circuit.window.arrive }
          waiting := { serial := a.nextSerial, generation := a.circuit.generation } ::ₘ a.waiting
          running := a.running
          nextSerial := a.nextSerial + 1 }
  | invoked {a : Account} {t : Ticket} {rest : Multiset Ticket} (h : a.waiting = t ::ₘ rest) :
      Happens policy a (.invoked t.serial) { a with waiting := rest, running := t ::ₘ a.running }
  | struck {a : Account} {t : Ticket} {rest : Multiset Ticket} (h : a.waiting = t ::ₘ rest) :
      Happens policy a (.struck t.serial) { a with waiting := rest }
  | counted {a : Account} {t : Ticket} {rest : Multiset Ticket} (success : Bool)
      (h : a.running = t ::ₘ rest) (hcurrent : t.generation = a.circuit.generation) :
      Happens policy a (.ended t.serial success)
        { a with running := rest, circuit := a.circuit.record success }
  | stale {a : Account} {t : Ticket} {rest : Multiset Ticket} (success : Bool)
      (h : a.running = t ::ₘ rest) (hstale : t.generation ≠ a.circuit.generation) :
      Happens policy a (.ended t.serial success) { a with running := rest }

/-- What events make of an account, one after another. -/
inductive Passes (policy : Policy) : Account → List Event → Account → Prop where
  | nil (a : Account) : Passes policy a [] a
  | cons {a b c : Account} {event : Event} {events : List Event} (head : a.Happens policy event b)
      (tail : Passes policy b events c) : Passes policy a (event :: events) c

variable {policy : Policy}

theorem Passes.append {a b c : Account} {events more : List Event} (h : a.Passes policy events b)
    (hmore : b.Passes policy more c) : a.Passes policy (events ++ more) c := by
  induction h with
  | nil => exact hmore
  | cons head _ ih => exact .cons head (ih hmore)

theorem Happens.passes {a b : Account} {event : Event} (h : a.Happens policy event b) :
    a.Passes policy [event] b := .cons h (.nil b)

/-- Without a new generation nothing happens. -/
theorem passes_same (a : Account) {c c' : Circuit} (h : c.generation = c'.generation) :
    a.Passes policy (turned c c') a := by
  rw [turned_of_generation_eq h]
  exact .nil a

/-- A turn of the circuit is the start of a generation, or nothing. -/
theorem passes_turn (a : Account) (policy : Policy) (now : Instant) (next : Option Phase) :
    a.Passes policy (turned a.circuit (a.circuit.turn policy now next).circuit)
      { a with circuit := (a.circuit.turn policy now next).circuit } := by
  cases next with
  | none =>
    exact a.passes_same rfl
  | some phase =>
    obtain ⟨-, hgeneration, hwindow⟩ := Circuit.circuit_turn_some policy now phase a.circuit
    rw [turned, if_neg (by omega)]
    exact (Happens.began hgeneration hwindow).passes

end Account

/-! ## A delivery and the calls -/

/-- The account while a delivery holds back what comes after it. -/
def holding (e : Engine) (sequel : Sequel) : Account :=
  { e.account with waiting := ((held? sequel).toList : Multiset Ticket) + e.account.waiting }

theorem holding_of_none {e : Engine} {sequel : Sequel} (h : held? sequel = none) :
    e.holding sequel = e.account := by
  simp [holding, h]

theorem account_listening (e : Engine) (t : Transition) (sequel : Sequel) (mailbox : Mailbox) :
    ({ e with mailbox, frames := .listening t sequel :: e.frames } : Engine).account =
      e.holding sequel := by
  simp [account, holding]

section Delivery

variable {policy : Policy} {e : Engine} {sequel : Sequel}

/-- The end of a method invokes the operation that it holds back, if any. -/
theorem passes_conclude (hsequel : isProper sequel = true)
    (journal : List Entry) :
    (e.holding sequel).Passes policy (invoked (e.conclude sequel journal).reply)
      (e.conclude sequel journal).engine.account := by
  cases sequel with
  | operate t =>
    have hwaiting : (e.holding (.operate t)).waiting = t ::ₘ e.account.waiting := by
      simp [holding, held?]
    have haccount : (e.conclude (.operate t) journal).engine.account =
        { e.holding (.operate t) with
          waiting := e.account.waiting
          running := t ::ₘ (e.holding (.operate t)).running } := by
      simp [conclude, account, holding]
    rw [haccount]
    exact (Account.Happens.invoked hwaiting).passes
  | answer reply =>
    rw [holding_of_none rfl]
    cases reply with
    | operating t => cases hsequel
    | _ => exact .nil e.account
  | refuse r =>
    rw [holding_of_none rfl]
    exact .nil e.account
  | unwind text =>
    rw [holding_of_none rfl]
    exact .nil e.account

theorem passes_deliver (hsequel : isProper sequel = true)
    (journal : List Entry) :
    (e.holding sequel).Passes policy (invoked (e.deliver sequel journal).reply)
      (e.deliver sequel journal).engine.account := by
  rcases deliver_cases e sequel journal with ⟨t, rest, -, heq⟩ | ⟨-, heq⟩
  · rw [heq, account_listening]
    exact .nil _
  · rw [heq]
    exact passes_conclude hsequel journal

theorem passes_proceed (hsequel : isProper sequel = true)
    (journal : List Entry) :
    (e.holding sequel).Passes policy
      (invoked (e.follow sequel journal (Courier.proceed e.mailbox)).reply)
      (e.follow sequel journal (Courier.proceed e.mailbox)).engine.account := by
  rcases proceed_cases e sequel journal with ⟨t, rest, -, heq⟩ | ⟨-, heq⟩
  · rw [heq, account_listening]
    exact .nil _
  · rw [heq]
    exact passes_conclude (e := { e with mailbox := {} }) hsequel journal

end Delivery

/-! ## The call that ends -/

section Ends

variable {e e' : Engine} {move : Move} {t : Ticket} {success : Bool} {sequel : Sequel}

theorem coe_suspended (hmem : t ∈ e.suspended) :
    (e.suspended : Multiset Ticket) = t ::ₘ (e.suspended.erase t : List Ticket) :=
  Multiset.coe_eq_coe.2 (List.perm_cons_erase hmem)

theorem Ends.account_eq (h : e.Ends move t success e' sequel) :
    e.account = { e'.account with running := t ::ₘ e'.account.running } := by
  cases h with
  | finish success hframes => simp [account, hframes]
  | panic text hframes => simp [account, hframes]
  | abandon hmem => simp only [account, coe_suspended hmem, Multiset.add_cons]

theorem Ends.proper_sequel (h : e.Ends move t success e' sequel) :
    isProper sequel = true ∧ held? sequel = none := by
  cases h <;> exact ⟨rfl, rfl⟩

theorem Ends.deed_eq (h : e.Ends move t success e' sequel) (now : Instant) :
    e.deed now move = [.ended t.serial success] := by
  cases h with
  | finish success hframes => simp [deed, Engine.ending, hframes]
  | panic text hframes => simp [deed, Engine.ending, hframes]
  | abandon hmem => rfl

theorem Ends.invocation_eq (h : e.Ends move t success e' sequel) (reply : Reply) :
    invocation move reply = invoked reply := by
  cases h <;> rfl

/-- The end of a call whose outcome the breaker takes note of. -/
theorem Settles.passes {policy : Policy} {now : Instant} {c c' : Circuit}
    {change : Option Transition} (h : Settles policy now t success c c' change) (a : Account) :
    ∃ b, ({ a with circuit := c, running := t ::ₘ a.running } : Account).Passes policy
        [.ended t.serial success] b ∧
      b.Passes policy (turned c c') { a with circuit := c' } := by
  rcases h with ⟨hstale, rfl, -⟩ | ⟨hcurrent, hsettle⟩
  · exact ⟨_, (Account.Happens.stale success rfl hstale).passes, Account.passes_same _ rfl⟩
  · refine ⟨_, (Account.Happens.counted success rfl hcurrent).passes, ?_⟩
    rw [Circuit.settle_eq_turn] at hsettle
    have hturn := Account.passes_turn { a with circuit := c.record success } policy now
      ((c.record success).verdict policy success)
    rw [hsettle] at hturn
    exact hturn

end Ends

/-! ## All events of a stage -/

/-- What is due happens first. -/
theorem passes_evaluated (e : Engine) (now : Instant) (move : Move) :
    e.account.Passes e.policy (turned e.circuit (e.evaluated now move))
      { e.account with circuit := e.evaluated now move } := by
  unfold evaluated
  split
  · rw [Circuit.evaluate_eq_turn]
    exact e.account.passes_turn _ _ _
  · exact e.account.passes_same rfl

theorem admits_of_ok {e : Engine} {now : Instant} {c c' : Circuit} {change : Option Transition}
    (heval : e.circuit.evaluate e.policy now = .done c change)
    (hallow : c.allow e.policy = .ok c') : e.admits now = true := by
  simp [admits, heval, hallow, Except.isOk, Except.toBool]

theorem admits_of_error {e : Engine} {now : Instant} {c : Circuit} {change : Option Transition}
    {r : Refusal} (heval : e.circuit.evaluate e.policy now = .done c change)
    (hallow : c.allow e.policy = .error r) : e.admits now = false := by
  simp [admits, heval, hallow, Except.isOk, Except.toBool]

theorem admits_of_overflow {e : Engine} {now : Instant} {c : Circuit}
    (heval : e.circuit.evaluate e.policy now = .overflow c) : e.admits now = false := by
  simp [admits, heval]

/-- The events of a stage, put together from its parts. -/
theorem passes_of_parts {e : Engine} {now : Instant} {move : Move} {r : Response} {c : Circuit}
    {events : List Event} {a b : Account} (hevaluated : e.evaluated now move = c)
    (hdeed : e.deed now move = events)
    (hpasses : ({ e.account with circuit := c } : Account).Passes e.policy events a)
    (hturned : a.Passes e.policy (turned c r.engine.circuit) b)
    (hend : b.Passes e.policy (invocation move r.reply) r.engine.account) :
    e.account.Passes e.policy (Stage.events { before := e, now, move, response := r })
      r.engine.account := by
  have hdue := passes_evaluated e now move
  subst hevaluated hdeed
  exact ((hdue.append hpasses).append hturned).append hend

/-- A method whose delivery holds back no call.  `e'` is the engine that it
delivers from. -/
theorem passes_of_deliver {e : Engine} (e' : Engine) {now : Instant} {move : Move}
    {sequel : Sequel} {c : Circuit} {events : List Event} {a : Account}
    (hevaluated : e.evaluated now move = c)
    (hdeed : e.deed now move = events)
    (hpasses : ({ e.account with circuit := c } : Account).Passes e.policy events a)
    (hturned : a.Passes e.policy (turned c e'.circuit) e'.account)
    (hsequel : isProper sequel = true ∧ held? sequel = none)
    (hinvocation : ∀ reply, invocation move reply = invoked reply) (journal : List Entry) :
    e.account.Passes e.policy
      (Stage.events { before := e, now, move, response := e'.deliver sequel journal })
      (e'.deliver sequel journal).engine.account := by
  refine passes_of_parts hevaluated hdeed hpasses ?_ (hinvocation _ ▸ ?_) (b := e'.account)
  · rw [(deliver_keeps _ _ _).1]
    exact hturned
  · have hend : (e'.holding sequel).Passes e.policy _ _ := passes_deliver hsequel.1 journal
    rw [holding_of_none hsequel.2] at hend
    exact hend

/-- A move that leaves the circuit alone and is about no call. -/
theorem passes_of_idle {e : Engine} {now : Instant} {move : Move} {r : Response}
    (hevaluated : e.evaluated now move = e.circuit) (hdeed : e.deed now move = [])
    (hcircuit : r.engine.circuit = e.circuit)
    (hend : e.account.Passes e.policy (invocation move r.reply) r.engine.account) :
    e.account.Passes e.policy (Stage.events { before := e, now, move, response := r })
      r.engine.account :=
  passes_of_parts hevaluated hdeed (.nil _) (e.account.passes_same (by rw [hcircuit])) hend

/-- The end of a call in a method that the clock cuts short. -/
theorem Ends.passes_of_cut {e e' : Engine} {now : Instant} {move : Move} {t : Ticket}
    {success : Bool} {sequel : Sequel} {c c' : Circuit} {a : Account}
    (hends : e.Ends move t success e' sequel) (hevaluated : e.evaluated now move = c)
    (hended : ({ e'.account with circuit := c, running := t ::ₘ e'.account.running } :
      Account).Passes e.policy [.ended t.serial success] a)
    (hturned : a.Passes e.policy (turned c c') { e'.account with circuit := c' })
    (journal : List Entry) :
    e.account.Passes e.policy
      (Stage.events { before := e, now, move, response := e'.overflow c' journal })
      (e'.overflow c' journal).engine.account := by
  refine passes_of_parts hevaluated (hends.deed_eq now) ?_ hturned ?_
  · rw [hends.account_eq]
    exact hended
  · rw [hends.invocation_eq]
    exact .nil _

/-- To suspend a call and to resume it moves it between the frames and the
suspended calls, all of which count as running. -/
theorem account_resume {e : Engine} {t : Ticket} (hmem : t ∈ e.suspended) :
    ({ e with suspended := e.suspended.erase t, frames := .operating t :: e.frames } :
      Engine).account = e.account := by
  simp only [account, waitingIn_operating, runningIn_operating, coe_suspended hmem,
    Multiset.add_cons, Multiset.cons_add]

theorem account_suspend {e : Engine} {t : Ticket} {frames : List Frame}
    (hframes : e.frames = .operating t :: frames) :
    ({ e with frames, suspended := t :: e.suspended } : Engine).account = e.account := by
  simp only [account, hframes, waitingIn_operating, runningIn_operating, Multiset.cons_add,
    ← Multiset.cons_coe, Multiset.add_cons]

/-- A delivery that is under way holds back what comes after it. -/
theorem holding_tail {e : Engine} {t : Transition} {sequel : Sequel} {frames : List Frame}
    (hframes : e.frames = .listening t sequel :: frames) (mailbox : Mailbox) :
    ({ e with frames, mailbox } : Engine).holding sequel = e.account := by
  simp [holding, account, hframes]

/-- A move makes of the account what its events make of it. -/
theorem Took.passes {e : Engine} {now : Instant} {move : Move} {r : Response}
    (took : e.Took now move r) (hproper : e.Proper)
    (hpast : ∀ t ∈ e.account.running, t.generation ≤ e.circuit.generation) :
    e.account.Passes e.policy
      (Stage.events { before := e, now, move, response := r }) r.engine.account := by
  cases took with
  | @queried c change heval view journal =>
    have hev : e.evaluated now .query = c := evaluated_eq rfl heval
    exact passes_of_deliver (e.accept c change) hev rfl (.nil _)
      (Account.passes_same _ rfl) ⟨rfl, rfl⟩ (fun _ => rfl) journal
  | @refused c change refusal heval hallow journal =>
    have hev : e.evaluated now .call = c := evaluated_eq rfl heval
    have hdeed : e.deed now .call = [] := by simp [deed, admits_of_error heval hallow]
    exact passes_of_deliver (e.accept c change) hev hdeed (.nil _)
      (Account.passes_same _ rfl) ⟨rfl, rfl⟩ (fun _ => rfl) journal
  | @admitted c c' change heval hallow journal =>
    have hev : e.evaluated now .call = c := evaluated_eq rfl heval
    have hdeed : e.deed now .call = [.admitted e.nextSerial] := by
      simp [deed, admits_of_ok heval hallow]
    obtain rfl := Circuit.allow_eq_ok hallow
    refine passes_of_parts hev hdeed (Account.Happens.admitted hallow).passes ?_
      (passes_deliver rfl journal)
    exact Account.passes_same _ (by rw [(deliver_keeps _ _ _).1])
  | @reset c change hreset journal =>
    have hturned := e.account.passes_turn e.policy now (some .closed)
    rw [show e.account.circuit.turn e.policy now (some .closed) = .done c change from hreset]
      at hturned
    exact passes_of_deliver (e.accept c change) rfl rfl (.nil _) hturned ⟨rfl, rfl⟩
      (fun _ => rfl) journal
  | @cut move c hmove heval =>
    have hev : e.evaluated now move = c := by
      rcases hmove with rfl | rfl <;> exact evaluated_eq rfl heval
    have hdeed : e.deed now move = [] := by
      rcases hmove with rfl | rfl
      · rfl
      · simp [deed, admits_of_overflow heval]
    refine passes_of_parts hev hdeed (.nil _) (Account.passes_same _ rfl) ?_
    rcases hmove with rfl | rfl <;> exact .nil _
  | @resetCut c hreset =>
    have hturned := e.account.passes_turn e.policy now (some .closed)
    rw [show e.account.circuit.turn e.policy now (some .closed) = .overflow c from hreset]
      at hturned
    exact passes_of_parts rfl rfl (.nil _) hturned (.nil _)
  | @ended move t success e' sequel c c' change change' hends heval hsettles journal =>
    obtain ⟨a, hpasses, hturned⟩ := hsettles.passes e'.account
    refine passes_of_deliver ((e'.accept c change).accept c' change') (hends.evaluated_eq heval)
      (hends.deed_eq now) ?_ hturned hends.proper_sequel hends.invocation_eq journal
    rw [hends.account_eq]
    exact hpasses
  | @endedCut move t success e' sequel c hends heval journal =>
    -- The generation that is cut short is a new one, so the call is of an older one.
    have hgeneration : c.generation = e.circuit.generation + 1 := by
      rw [Circuit.evaluate_eq_turn] at heval
      exact (Circuit.turn_eq_overflow heval).1
    have hold : t.generation ≤ e.circuit.generation := by
      apply hpast t
      rw [hends.account_eq]
      exact Multiset.mem_cons_self t e'.account.running
    have hstale : t.generation ≠ c.generation := by omega
    exact hends.passes_of_cut (hends.evaluated_eq heval)
      (Account.Happens.stale success rfl hstale).passes (Account.passes_same _ rfl) journal
  | @settledCut move t success e' sequel c c' change hends heval hcurrent hsettle journal =>
    have hturned := Account.passes_turn { e'.account with circuit := c.record success }
      e.policy now ((c.record success).verdict e.policy success)
    rw [← Circuit.settle_eq_turn, hsettle] at hturned
    exact hends.passes_of_cut (hends.evaluated_eq heval)
      (Account.Happens.counted success rfl hcurrent).passes hturned journal
  | resumed hmem =>
    refine passes_of_idle rfl rfl rfl ?_
    rw [account_resume hmem]
    exact .nil _
  | suspended hframes =>
    refine passes_of_idle rfl rfl rfl ?_
    rw [account_suspend hframes]
    exact .nil _
  | @heard t sequel frames hframes =>
    have hsequel := hproper t sequel (hframes ▸ List.mem_cons_self)
    have hdeed : e.deed now .heard = [] := by simp [deed, ending]
    refine passes_of_idle rfl hdeed (proceed_keeps { e with frames } sequel []).1 ?_
    rw [← holding_tail hframes e.mailbox]
    exact passes_proceed (e := { e with frames }) hsequel []
  | @silenced t sequel frames text hframes =>
    have hev : e.evaluated now (.panic text) = e.circuit := by
      simp [evaluated, evaluates, ending, hframes]
    cases sequel with
    | operate t' =>
      have hdeed : e.deed now (.panic text) = [.struck t'.serial] := by simp [deed, hframes]
      have hwaiting : e.account.waiting = t' ::ₘ waitingIn frames := by
        simp [account, hframes, held?]
      have haccount : ({ e with frames, mailbox := e.mailbox.release } : Engine).account =
          { e.account with waiting := waitingIn frames } := by
        simp [account, hframes]
      refine passes_of_parts hev hdeed (Account.Happens.struck hwaiting).passes
        (Account.passes_same _ rfl) ?_
      rw [haccount]
      exact .nil _
    | _ =>
      have hdeed : e.deed now (.panic text) = [] := by simp [deed, ending, hframes]
      apply passes_of_idle hev hdeed rfl
      rw [← holding_tail hframes e.mailbox.release, holding_of_none rfl]
      exact .nil _

/-- The call whose end a move reports is in flight. -/
theorem Took.ending_mem {e : Engine} {now : Instant} {move : Move} {r : Response}
    (h : e.Took now move r) {t : Ticket} {success : Bool}
    (hending : e.ending move = some (t, success)) : t ∈ e.account.inFlight := by
  have hends_mem : ∀ {e' : Engine} {t' : Ticket} {success' : Bool} {sequel : Sequel},
      e.Ends move t' success' e' sequel → t ∈ e.account.inFlight := by
    intro e' t' success' sequel hends
    rw [hends.ending] at hending
    cases hending
    rw [hends.account_eq]
    exact Multiset.mem_add.2 (.inr (Multiset.mem_cons_self t e'.account.running))
  cases h with
  | ended hends heval hsettles journal => exact hends_mem hends
  | endedCut hends heval journal => exact hends_mem hends
  | settledCut hends heval hcurrent hsettle journal => exact hends_mem hends
  | cut hmove heval => rcases hmove with rfl | rfl <;> cases hending
  | silenced text hframes => simp [ending, hframes] at hending
  | _ => cases hending

end Breaker.Engine
