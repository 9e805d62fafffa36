import Breaker.Proofs.Account
import Mathlib.Algebra.Order.Group.Multiset
import Mathlib.Tactic.Abel

/-!
# The ledger of a generation

A ledger is kept from the events of a run alone: which calls were admitted
since the current generation began, which of their operations were invoked,
and how those operations ended, in order.  It knows neither counters nor the
generation that a ticket carries, and no number in it stops at a cap.

* `Ledger.Tracks`: the invariant that ties a ledger to an account;
* `Ledger.Tracks.note`: every event keeps it;
* `tracks_ledger`: so every life has it.

From it the counters of a breaker are those of the ledger, each stopped at the
cap, and the last section says when they count calls whose operation never ran.

The invariant says in `current` what makes the generation of a ticket a safe
mark: a call in flight is in the ledger exactly when it carries the current
generation.
-/

namespace Breaker

/-- How many of the last elements are all `b`. -/
def trailing (b : Bool) (l : List Bool) : Nat := (l.reverse.takeWhile (· == b)).length

theorem trailing_concat (b x : Bool) (l : List Bool) :
    trailing b (l ++ [x]) = if x = b then trailing b l + 1 else 0 := by
  cases b <;> cases x <;> simp [trailing]

namespace Engine

/-- The calls of the current generation, by their numbers, in order. -/
structure Ledger where
  /-- Admitted since the generation began. -/
  calls : List Nat := []
  /-- Those whose operation was invoked. -/
  invoked : List Nat := []
  /-- Those that a panic of the listener ended before that. -/
  struck : List Nat := []
  /-- Those that have ended, while the generation was still current, and how. -/
  endings : List (Nat × Bool) := []
  deriving DecidableEq, Repr

namespace Ledger

/-- The ledger after one more event: a new generation starts a new ledger, and
of the other events only those of its own calls are kept. -/
def note (l : Ledger) : Event → Ledger
  | .began => {}
  | .admitted n => { l with calls := l.calls ++ [n] }
  | .invoked n => if n ∈ l.calls then { l with invoked := l.invoked ++ [n] } else l
  | .struck n => if n ∈ l.calls then { l with struck := l.struck ++ [n] } else l
  | .ended n success =>
    if n ∈ l.calls then { l with endings := l.endings ++ [(n, success)] } else l

@[simp] theorem calls_invoked (l : Ledger) (n : Nat) : (l.note (.invoked n)).calls = l.calls := by
  rw [note]
  split <;> rfl

@[simp] theorem calls_struck (l : Ledger) (n : Nat) : (l.note (.struck n)).calls = l.calls := by
  rw [note]
  split <;> rfl

@[simp] theorem calls_ended (l : Ledger) (n : Nat) (success : Bool) :
    (l.note (.ended n success)).calls = l.calls := by
  rw [note]
  split <;> rfl

/-- How the calls ended, in the order in which they did. -/
def outcomes (l : Ledger) : List Bool := l.endings.map Prod.snd

/-- The counters that the ledger amounts to, each stopped at the cap. -/
def window (l : Ledger) : Window :=
  { requests := min l.calls.length Window.cap
    successes := min (l.outcomes.count true) Window.cap
    failures := min (l.outcomes.count false) Window.cap
    successRun := min (trailing true l.outcomes) Window.cap
    failureRun := min (trailing false l.outcomes) Window.cap }

/-- The calls that have not ended. -/
def unfinished (l : Ledger) : List Nat := l.calls.filter fun n => n ∉ l.endings.map Prod.fst

end Ledger

/-- The ledger that a run leaves. -/
def Run.ledger (run : Run) : Ledger :=
  (run.stages.flatMap Stage.events).foldl Ledger.note {}

theorem Run.ledger_snoc (run : Run) (s : Stage) :
    (run.snoc s).ledger = s.events.foldl Ledger.note run.ledger := by
  simp [Run.ledger, Run.snoc, List.flatMap_append, List.foldl_append]

/-! ## The invariant -/

/-- The numbers of the tickets that carry the given generation. -/
def numbersOf (generation : Nat) (tickets : Multiset Ticket) : Multiset Nat :=
  (tickets.filter fun t => t.generation = generation).map Ticket.serial

theorem numbersOf_cons_current {generation : Nat} {t : Ticket} (tickets : Multiset Ticket)
    (h : t.generation = generation) :
    numbersOf generation (t ::ₘ tickets) = t.serial ::ₘ numbersOf generation tickets := by
  simp [numbersOf, h]

theorem numbersOf_cons_stale {generation : Nat} {t : Ticket} (tickets : Multiset Ticket)
    (h : t.generation ≠ generation) :
    numbersOf generation (t ::ₘ tickets) = numbersOf generation tickets := by
  simp [numbersOf, h]

theorem mem_numbersOf {generation : Nat} {t : Ticket} {tickets : Multiset Ticket}
    (hmem : t ∈ tickets) (h : t.generation = generation) :
    t.serial ∈ numbersOf generation tickets :=
  Multiset.mem_map_of_mem _ (Multiset.mem_filter.2 ⟨hmem, h⟩)

theorem numbersOf_eq_zero {generation : Nat} {tickets : Multiset Ticket}
    (h : ∀ t ∈ tickets, t.generation < generation) : numbersOf generation tickets = 0 := by
  rw [numbersOf, Multiset.filter_eq_nil.2 fun t ht => Nat.ne_of_lt (h t ht), Multiset.map_zero]

namespace Ledger

/-- What ties a ledger to an account. -/
structure Tracks (l : Ledger) (a : Account) : Prop where
  window : a.circuit.window = l.window
  serial_lt : ∀ t ∈ a.inFlight, t.serial < a.nextSerial
  call_lt : ∀ n ∈ l.calls, n < a.nextSerial
  nodup : l.calls.Nodup
  past : ∀ t ∈ a.inFlight, t.generation ≤ a.circuit.generation
  /-- A call in flight is in the ledger when it carries the current generation. -/
  current : ∀ t ∈ a.inFlight, t.serial ∈ l.calls ↔ t.generation = a.circuit.generation
  /-- Every call has ended, was struck, or is in flight. -/
  finished : (l.calls : Multiset Nat) =
    (l.endings.map Prod.fst : List Nat) + (l.struck : Multiset Nat) +
      numbersOf a.circuit.generation a.inFlight
  /-- Every call was invoked, was struck, or waits. -/
  begun : (l.calls : Multiset Nat) =
    (l.invoked : Multiset Nat) + (l.struck : Multiset Nat) +
      numbersOf a.circuit.generation a.waiting

theorem window_admitted (l : Ledger) (n : Nat) :
    (l.note (.admitted n)).window = l.window.arrive := by
  simp [note, window, Window.arrive, Window.bump_min, outcomes]

theorem window_ended {l : Ledger} {n : Nat} (success : Bool) (h : n ∈ l.calls) :
    (l.note (.ended n success)).window = l.window.record success := by
  have houtcomes : (l.note (.ended n success)).outcomes = l.outcomes ++ [success] := by
    simp [note, h, outcomes]
  cases success <;>
    simp [window, houtcomes, Window.record, Window.succeed, Window.fail, Window.bump_min,
      trailing_concat]

/-- A call that has not ended is in flight, unless the listener struck it. -/
theorem Tracks.unfinished_eq {l : Ledger} {a : Account} (h : l.Tracks a) :
    (l.unfinished : Multiset Nat) =
      (l.struck : Multiset Nat) + numbersOf a.circuit.generation a.inFlight := by
  have hnodup : (l.calls : Multiset Nat).Nodup := Multiset.coe_nodup.2 h.nodup
  have hfinished := h.finished
  rw [add_assoc] at hfinished
  rw [hfinished] at hnodup
  have hdisjoint := (Multiset.nodup_add.1 hnodup).2.2
  rw [unfinished, ← Multiset.filter_coe, hfinished, Multiset.filter_add,
    Multiset.filter_eq_nil.2, zero_add, Multiset.filter_eq_self]
  · intro n hn
    have hnot := Multiset.disjoint_right.1 hdisjoint hn
    simpa using hnot
  · intro n hended hnot
    exact hnot (Multiset.mem_coe.1 hended)

theorem Tracks.length_calls {l : Ledger} {a : Account} (h : l.Tracks a) :
    l.calls.length = l.endings.length + l.unfinished.length := by
  have hcalls := congrArg Multiset.card h.finished
  have hunfinished := congrArg Multiset.card h.unfinished_eq
  simp only [Multiset.card_add, Multiset.coe_card, List.length_map] at hcalls hunfinished
  omega

/-! ## One event -/

section

variable {l : Ledger} {a : Account}

/-- A new generation leaves all calls in flight behind. -/
theorem Tracks.begins (h : l.Tracks a) {c : Circuit}
    (hgeneration : c.generation = a.circuit.generation + 1) (hwindow : c.window = {}) :
    (l.note .began).Tracks { a with circuit := c } := by
  have hpast : ∀ t ∈ a.inFlight, t.generation < c.generation := by
    intro t ht
    have := h.past t ht
    omega
  have hwaiting : ∀ t ∈ a.waiting, t.generation < c.generation :=
    fun t ht => hpast t (Multiset.mem_add.2 (.inl ht))
  refine ⟨hwindow, h.serial_lt, by simp [note], List.nodup_nil, ?_, ?_, ?_, ?_⟩
  · exact fun t ht => Nat.le_of_lt (hpast t ht)
  · intro t ht
    have := hpast t ht
    simp only [note, List.not_mem_nil, false_iff]
    omega
  · show (0 : Multiset Nat) = 0 + 0 + numbersOf c.generation a.inFlight
    rw [numbersOf_eq_zero hpast]
    rfl
  · show (0 : Multiset Nat) = 0 + 0 + numbersOf c.generation a.waiting
    rw [numbersOf_eq_zero hwaiting]
    rfl

/-- The number of a new call is larger than all others, so the call is in no
ledger yet. -/
theorem Tracks.admits (h : l.Tracks a) {t : Ticket} (hserial : t.serial = a.nextSerial)
    (hcurrent : t.generation = a.circuit.generation) :
    (l.note (.admitted t.serial)).Tracks
      { circuit := { a.circuit with window := a.circuit.window.arrive }
        waiting := t ::ₘ a.waiting
        running := a.running
        nextSerial := a.nextSerial + 1 } := by
  have hfresh : t.serial ∉ l.calls := by
    intro hmem
    have := h.call_lt _ hmem
    omega
  have hflight : (t ::ₘ a.waiting) + a.running = t ::ₘ a.inFlight := Multiset.cons_add _ _ _
  refine ⟨?_, ?_, ?_, ?_, ?_, ?_, ?_, ?_⟩
  · rw [window_admitted, ← h.window]
  · intro t' ht'
    rcases Multiset.mem_cons.1 (hflight ▸ ht' : t' ∈ t ::ₘ a.inFlight) with rfl | hold
    · simp only
      omega
    · exact Nat.lt_succ_of_lt (h.serial_lt t' hold)
  · intro n hn
    rcases List.mem_append.1 hn with hold | hnew
    · exact Nat.lt_succ_of_lt (h.call_lt n hold)
    · rw [List.mem_singleton.1 hnew]
      simp only
      omega
  · exact List.nodup_append'.2 ⟨h.nodup, List.nodup_singleton _, by simpa using hfresh⟩
  · intro t' ht'
    rcases Multiset.mem_cons.1 (hflight ▸ ht' : t' ∈ t ::ₘ a.inFlight) with rfl | hold
    · exact Nat.le_of_eq hcurrent
    · exact h.past t' hold
  · intro t' ht'
    rcases Multiset.mem_cons.1 (hflight ▸ ht' : t' ∈ t ::ₘ a.inFlight) with rfl | hold
    · simp [note, hcurrent]
    · have hne : t'.serial ≠ t.serial := by
        have := h.serial_lt t' hold
        omega
      simp [note, hne, h.current t' hold]
  · show ((l.calls ++ [t.serial] : List Nat) : Multiset Nat) =
      (l.endings.map Prod.fst : List Nat) + (l.struck : Multiset Nat) +
        numbersOf a.circuit.generation ((t ::ₘ a.waiting) + a.running)
    rw [hflight, numbersOf_cons_current _ hcurrent, ← Multiset.coe_add, h.finished,
      Multiset.coe_singleton, ← Multiset.singleton_add]
    abel
  · show ((l.calls ++ [t.serial] : List Nat) : Multiset Nat) =
      (l.invoked : Multiset Nat) + (l.struck : Multiset Nat) +
        numbersOf a.circuit.generation (t ::ₘ a.waiting)
    rw [numbersOf_cons_current _ hcurrent, ← Multiset.coe_add, h.begun, Multiset.coe_singleton,
      ← Multiset.singleton_add]
    abel

/-- An event that admits no call and starts no generation: it is enough to
look at the window and at the two balances. -/
theorem Tracks.of_subset (h : l.Tracks a) {l' : Ledger} {a' : Account}
    (hcalls : l'.calls = l.calls) (hserial : a'.nextSerial = a.nextSerial)
    (hgeneration : a'.circuit.generation = a.circuit.generation)
    (hflight : ∀ t ∈ a'.inFlight, t ∈ a.inFlight) (hwindow : a'.circuit.window = l'.window)
    (hfinished : (l.calls : Multiset Nat) =
      (l'.endings.map Prod.fst : List Nat) + (l'.struck : Multiset Nat) +
        numbersOf a.circuit.generation a'.inFlight)
    (hbegun : (l.calls : Multiset Nat) =
      (l'.invoked : Multiset Nat) + (l'.struck : Multiset Nat) +
        numbersOf a.circuit.generation a'.waiting) : l'.Tracks a' := by
  refine ⟨hwindow, ?_, ?_, ?_, ?_, ?_, ?_, ?_⟩
  · exact fun t ht => hserial ▸ h.serial_lt t (hflight t ht)
  · exact fun n hn => hserial ▸ h.call_lt n (hcalls ▸ hn)
  · exact hcalls ▸ h.nodup
  · exact fun t ht => hgeneration ▸ h.past t (hflight t ht)
  · intro t ht
    rw [hcalls, hgeneration]
    exact h.current t (hflight t ht)
  · rw [hcalls, hgeneration]
    exact hfinished
  · rw [hcalls, hgeneration]
    exact hbegun

/-- The invocation of an operation: the call no longer waits, but is still in
flight. -/
theorem Tracks.invokes (h : l.Tracks a) {t : Ticket} {rest : Multiset Ticket}
    (hwaiting : a.waiting = t ::ₘ rest) :
    (l.note (.invoked t.serial)).Tracks
      { a with waiting := rest, running := t ::ₘ a.running } := by
  have hflight : rest + (t ::ₘ a.running) = a.inFlight := by
    rw [Account.inFlight, hwaiting, Multiset.add_cons, Multiset.cons_add]
  have hmem : t ∈ a.inFlight := by simp [Account.inFlight, hwaiting]
  have hbegun := h.begun
  rw [hwaiting] at hbegun
  by_cases hcurrent : t.generation = a.circuit.generation
  · rw [note, if_pos ((h.current t hmem).2 hcurrent)]
    rw [numbersOf_cons_current _ hcurrent, ← Multiset.singleton_add] at hbegun
    refine h.of_subset rfl rfl rfl ?_ h.window ?_ ?_
    · exact fun t' ht' => hflight ▸ ht'
    · rw [Account.inFlight, hflight]
      exact h.finished
    · rw [hbegun, ← Multiset.coe_add, Multiset.coe_singleton]
      abel
  · rw [note, if_neg (mt (h.current t hmem).1 hcurrent)]
    rw [numbersOf_cons_stale _ hcurrent] at hbegun
    refine h.of_subset rfl rfl rfl ?_ h.window ?_ hbegun
    · exact fun t' ht' => hflight ▸ ht'
    · rw [Account.inFlight, hflight]
      exact h.finished

/-- A call that the listener's panic strikes neither waits nor is in flight. -/
theorem Tracks.strikes (h : l.Tracks a) {t : Ticket} {rest : Multiset Ticket}
    (hwaiting : a.waiting = t ::ₘ rest) :
    (l.note (.struck t.serial)).Tracks { a with waiting := rest } := by
  have hflight : a.inFlight = t ::ₘ (rest + a.running) := by
    rw [Account.inFlight, hwaiting, Multiset.cons_add]
  have hmem : t ∈ a.inFlight := hflight ▸ Multiset.mem_cons_self t _
  have hfinished := h.finished
  have hbegun := h.begun
  rw [hflight] at hfinished
  rw [hwaiting] at hbegun
  by_cases hcurrent : t.generation = a.circuit.generation
  · rw [note, if_pos ((h.current t hmem).2 hcurrent)]
    rw [numbersOf_cons_current _ hcurrent, ← Multiset.singleton_add] at hfinished hbegun
    refine h.of_subset rfl rfl rfl ?_ h.window ?_ ?_
    · exact fun t' ht' => hflight ▸ Multiset.mem_cons_of_mem ht'
    · rw [hfinished, ← Multiset.coe_add, Multiset.coe_singleton, Account.inFlight]
      abel
    · rw [hbegun, ← Multiset.coe_add, Multiset.coe_singleton]
      abel
  · rw [note, if_neg (mt (h.current t hmem).1 hcurrent)]
    rw [numbersOf_cons_stale _ hcurrent] at hfinished hbegun
    refine h.of_subset rfl rfl rfl ?_ h.window hfinished hbegun
    exact fun t' ht' => hflight ▸ Multiset.mem_cons_of_mem ht'

/-- The end of a call of the current generation is written into the window. -/
theorem Tracks.counts (h : l.Tracks a) {t : Ticket} {rest : Multiset Ticket} (success : Bool)
    (hrunning : a.running = t ::ₘ rest) (hcurrent : t.generation = a.circuit.generation) :
    (l.note (.ended t.serial success)).Tracks
      { a with running := rest, circuit := a.circuit.record success } := by
  have hflight : a.inFlight = t ::ₘ (a.waiting + rest) := by
    rw [Account.inFlight, hrunning, Multiset.add_cons]
  have hcall : t.serial ∈ l.calls :=
    (h.current t (hflight ▸ Multiset.mem_cons_self t _)).2 hcurrent
  have hfinished := h.finished
  rw [hflight, numbersOf_cons_current _ hcurrent, ← Multiset.singleton_add] at hfinished
  have hwindow : (a.circuit.record success).window = (l.note (.ended t.serial success)).window := by
    rw [window_ended success hcall, ← h.window]
    rfl
  rw [note, if_pos hcall] at hwindow ⊢
  refine h.of_subset rfl rfl rfl ?_ hwindow ?_ h.begun
  · exact fun t' ht' => hflight ▸ Multiset.mem_cons_of_mem ht'
  · simp only [List.map_append, List.map_cons, List.map_nil]
    rw [hfinished, ← Multiset.coe_add, Multiset.coe_singleton, Account.inFlight]
    abel

/-- The end of a call of an earlier generation is not. -/
theorem Tracks.ignores (h : l.Tracks a) {t : Ticket} {rest : Multiset Ticket} (success : Bool)
    (hrunning : a.running = t ::ₘ rest) (hstale : t.generation ≠ a.circuit.generation) :
    (l.note (.ended t.serial success)).Tracks { a with running := rest } := by
  have hflight : a.inFlight = t ::ₘ (a.waiting + rest) := by
    rw [Account.inFlight, hrunning, Multiset.add_cons]
  have hcall : t.serial ∉ l.calls :=
    mt (h.current t (hflight ▸ Multiset.mem_cons_self t _)).1 hstale
  have hfinished := h.finished
  rw [hflight, numbersOf_cons_stale _ hstale] at hfinished
  rw [note, if_neg hcall]
  refine h.of_subset rfl rfl rfl ?_ h.window hfinished h.begun
  exact fun t' ht' => hflight ▸ Multiset.mem_cons_of_mem ht'

/-- Whatever happens, the ledger keeps track of the account. -/
theorem Tracks.note {policy : Policy} {b : Account} {event : Event} (h : l.Tracks a)
    (hhappens : a.Happens policy event b) : (l.note event).Tracks b := by
  cases hhappens with
  | began hgeneration hwindow => exact h.begins hgeneration hwindow
  | admitted hallow => exact h.admits (t := ⟨a.nextSerial, a.circuit.generation⟩) rfl rfl
  | invoked hwaiting => exact h.invokes hwaiting
  | struck hwaiting => exact h.strikes hwaiting
  | counted success hrunning hcurrent => exact h.counts success hrunning hcurrent
  | stale success hrunning hstale => exact h.ignores success hrunning hstale

theorem Tracks.foldl_note {policy : Policy} {b : Account} {events : List Event} (h : l.Tracks a)
    (hpasses : a.Passes policy events b) : (events.foldl Ledger.note l).Tracks b := by
  induction hpasses generalizing l with
  | nil => exact h
  | cons head _ ih => exact ih (h.note head)

/-- What one event keeps, all events of a stage keep. -/
theorem Tracks.foldl_keeps {policy : Policy} {b : Account} {events : List Event}
    {motive : Ledger → Account → Prop}
    (keeps : ∀ {l a event b}, l.Tracks a → motive l a → a.Happens policy event b →
      motive (l.note event) b)
    (htracks : l.Tracks a) (h : motive l a) (hpasses : a.Passes policy events b) :
    motive (events.foldl Ledger.note l) b := by
  induction hpasses generalizing l with
  | nil => exact h
  | cons head _ ih => exact ih (htracks.note head) (keeps htracks h head)

end

end Ledger

/-! ## Lives -/

/-- No call in flight is of a later generation, which is what an account needs
to pass through the events of a stage. -/
theorem Ledger.Tracks.passes {l : Ledger} {s : Stage} (h : l.Tracks s.before.account)
    (hproper : s.before.Proper) (hvalid : s.Valid) :
    s.before.account.Passes s.before.policy s.events s.response.engine.account := by
  apply (step_took hvalid).passes hproper
  intro t ht
  exact h.past t (Multiset.mem_add.2 (.inr ht))

section

variable {name : String} {policy : Policy} {audience : Audience} {start : Instant}
variable {schedule : List (Instant × Move)} {run : Run}

theorem tracks_new {e : Engine} (h : new? name policy audience start = some e) :
    ({} : Ledger).Tracks e.account := by
  obtain ⟨hframes, hsuspended, -, -, -, hwindow⟩ := new?_eq_some h
  have hwaiting : e.account.waiting = 0 := by simp [account, hframes, waitingIn]
  have hrunning : e.account.running = 0 := by simp [account, hframes, hsuspended, runningIn]
  have hflight : e.account.inFlight = 0 := by
    rw [Account.inFlight, hwaiting, hrunning, add_zero]
  refine ⟨hwindow, ?_, ?_, List.nodup_nil, ?_, ?_, ?_, ?_⟩ <;>
    simp [hflight, hwaiting, numbersOf]

/-- In every life the frames are proper, and the ledger keeps track of the
calls. -/
theorem tracks_ledger (hlife : life name policy audience start schedule = some run) :
    run.engine.Proper ∧ run.ledger.Tracks run.engine.account := by
  refine life_induction (motive := fun run => run.engine.Proper ∧
    run.ledger.Tracks run.engine.account)
    (fun e hnew => ⟨proper_new hnew, tracks_new hnew⟩) ?_ hlife
  rintro run s ⟨hproper, htracks⟩ hbefore - hvalid
  rw [hbefore] at hproper htracks
  refine ⟨(step_took hvalid).proper hproper, ?_⟩
  rw [Run.ledger_snoc]
  exact htracks.foldl_note (htracks.passes hproper hvalid)

/-- In every state that a breaker can reach, its counters are those of the
ledger of its generation, each stopped at the cap.  No call is in the ledger
twice, and every end that it counts is that of another one of its calls.

The listener may panic, and the clock may be too short for a deadline. -/
theorem window_eq_ledger (hlife : life name policy audience start schedule = some run) :
    run.engine.circuit.window = run.ledger.window ∧ run.ledger.calls.Nodup ∧
      (run.ledger.endings.map Prod.fst).Subperm run.ledger.calls := by
  obtain ⟨-, htracks⟩ := tracks_ledger hlife
  refine ⟨htracks.window, htracks.nodup, ?_⟩
  rw [← Multiset.coe_le, htracks.finished, add_assoc]
  exact Multiset.le_add_right _ _

/-- Three calls: the second inside the first, the third given up. -/
theorem window_eq_ledger_nested :
    ∃ run ∈ life "db" {} .client 0 [(0, .call), (1, .call), (2, .finish true), (3, .finish false),
        (4, .call), (5, .suspend), (6, .query), (7, .abandon ⟨2, 0⟩)],
      run.engine.circuit.window = run.ledger.window ∧ run.ledger.calls = [0, 1, 2] ∧
        run.ledger.endings = [(1, true), (0, false), (2, false)] := by
  obtain ⟨run, hlife, hledger⟩ : ∃ run ∈ life "db" {} .client 0 [(0, .call), (1, .call),
      (2, .finish true), (3, .finish false), (4, .call), (5, .suspend), (6, .query),
      (7, .abandon ⟨2, 0⟩)], run.ledger.calls = [0, 1, 2] ∧
        run.ledger.endings = [(1, true), (0, false), (2, false)] := by decide +kernel
  exact ⟨run, hlife, (window_eq_ledger hlife).1, hledger⟩

/-! ### Calls that never ran

An admitted call is counted first, then the transitions that wait are
delivered, and only afterwards does anyone answer for the call.  When the
listener panics in between, the call has used up a request for good.
-/

/-- Where no method is under way, the requests of the generation are the calls
whose operation was invoked and those that a panic of the listener struck, so
the counter is that of the invoked calls exactly when none was struck or it
stands at the cap anyway.

No other call has left a trace: neither one that was refused nor one that a
panic of the clock cut short. -/
theorem requests_eq_invoked_iff (hlife : life name policy audience start schedule = some run)
    (hidle : run.engine.frames = []) :
    run.engine.circuit.window.requests =
        min (run.ledger.invoked.length + run.ledger.struck.length) Window.cap ∧
      (run.engine.circuit.window.requests = min run.ledger.invoked.length Window.cap ↔
        run.ledger.struck = [] ∨ Window.cap ≤ run.ledger.invoked.length) := by
  obtain ⟨-, htracks⟩ := tracks_ledger hlife
  have hwaiting : run.engine.account.waiting = 0 := by simp [account, hidle, waitingIn]
  have hcalls := congrArg Multiset.card htracks.begun
  rw [hwaiting] at hcalls
  simp only [numbersOf, Multiset.filter_zero, Multiset.map_zero, Multiset.card_add,
    Multiset.coe_card, Multiset.card_zero, Nat.add_zero] at hcalls
  have hrequests : run.engine.circuit.window.requests =
      min run.ledger.calls.length Window.cap := congrArg Window.requests htracks.window
  rw [hrequests, hcalls]
  refine ⟨rfl, ?_⟩
  rw [← List.length_eq_zero_iff]
  omega

/-- A call that was suspended, one that was refused, and none that was struck. -/
theorem requests_eq_invoked_iff_refused :
    ∃ run ∈ life "db" { minRequests := 2 } .client 0
        [(0, .call), (1, .suspend), (2, .call), (3, .finish false), (4, .heard), (5, .call)],
      run.engine.frames = [] ∧ run.ledger.struck = [] ∧
        run.engine.circuit.window.requests = min run.ledger.invoked.length Window.cap := by
  obtain ⟨run, hlife, hidle, hstruck⟩ :
      ∃ run ∈ life "db" { minRequests := 2 } .client 0
          [(0, .call), (1, .suspend), (2, .call), (3, .finish false), (4, .heard), (5, .call)],
        run.engine.frames = [] ∧ run.ledger.struck = [] := by
    decide +kernel
  exact ⟨run, hlife, hidle, hstruck, (requests_eq_invoked_iff hlife hidle).2.2 (.inl hstruck)⟩

/-- The listener panics when it is told that the circuit is half open.  The
call that made it so has not run, and yet the only probe is gone: the next call
is refused. -/
theorem struck_probe_uses_request :
    Policy.Sound "db" { probeLimit := 1, openDuration := 0, minRequests := 1 } ∧
      ∃ run ∈ life "db" { probeLimit := 1, openDuration := 0, minRequests := 1 } .client 0
          [(0, .call), (1, .finish false), (2, .heard), (3, .call), (4, .panic "listener")],
        run.engine.frames = [] ∧ run.engine.circuit.phase = .halfOpen ∧
          run.ledger.invoked = [] ∧ run.engine.circuit.window.requests = 1 ∧
          run.engine.circuit.window.requests ≠ min run.ledger.invoked.length Window.cap ∧
          ∃ r ∈ run.engine.step 5 .call, r.reply = .refused .tooManyRequests :=
  ⟨⟨by decide +kernel, by decide, by decide⟩, by decide +kernel⟩

end

end Engine

end Breaker
