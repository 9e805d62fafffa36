import Breaker.Panel
import Breaker.Proofs.Quiet
import Breaker.Scenario.OnPanel
import Mathlib.Data.List.Nodup

/-!
# Breakers on a panel

A panel holds its breakers in a list, and finds them by their names.  No name
stands there twice, so that what is done to the breaker of one name is seen
under that name, and under no other.

* `find?_put`, `find?_insertNew`: what is found after a breaker was put back, or
  put in;
* `stepQuiet` is a move on one breaker, and `visit` the same move on several,
  one after another in any order;
* `Visited` says that a visit makes one move on each breaker of the order, and
  none on the others, and `visit_of_ready` that there is such a visit;
* `Panel.act` is all that a client does with a panel, and `obtain_eq_get`,
  `performAll_eq_visit` say that scripts do the same.
-/

namespace Breaker.Panel

variable {p : Panel} {e : Engine} {name : String} {now : Instant} {move : Move}
variable {settings : Settings}

/-! ## Finding breakers -/

/-- The names of the breakers, in the order in which they were built. -/
def roll (p : Panel) : List String := p.engines.map Engine.name

theorem name_of_find? (h : p.find? name = some e) : e.name = name := by
  simpa using List.find?_some h

theorem mem_roll_iff : name ∈ p.roll ↔ ∃ e, p.find? name = some e := by
  rw [roll, List.mem_map, ← Option.isSome_iff_exists, find?, List.find?_isSome]
  simp

theorem find?_eq_none_iff : p.find? name = none ↔ name ∉ p.roll := by
  rw [mem_roll_iff, ← Option.isSome_iff_exists, Option.not_isSome_iff_eq_none]

/-- A breaker is found by its name, where no name stands twice. -/
theorem find?_of_mem (hnodup : p.roll.Nodup) (hmem : e ∈ p.engines) :
    p.find? e.name = some e := by
  obtain ⟨e', hfind⟩ := mem_roll_iff.1 (List.mem_map_of_mem hmem : e.name ∈ p.roll)
  have hsame : e' = e :=
    List.inj_on_of_nodup_map hnodup (List.mem_of_find?_eq_some hfind) hmem (name_of_find? hfind)
  rw [hfind, hsame]

/-- Putting a breaker back changes no name. -/
@[simp] theorem roll_put : (p.put e).roll = p.roll := by
  rw [roll, put, List.map_map, roll]
  refine List.map_congr_left fun old _ => ?_
  by_cases h : old.name = e.name <;> simp [h]

/-- What is found after a breaker was put back in the place of the one of its
name. -/
theorem find?_put (h : e.name ∈ p.roll) :
    (p.put e).find? name = if name = e.name then some e else p.find? name := by
  have hmap : (p.put e).find? name =
      (p.find? name).map fun old => if old.name == e.name then e else old := by
    rw [find?, put, List.find?_map, find?]
    congr 2
    funext old
    by_cases hold : old.name = e.name <;> simp [hold]
  rw [hmap]
  by_cases hname : name = e.name
  · obtain ⟨old, hfind⟩ := mem_roll_iff.1 h
    rw [if_pos hname, hname, hfind, Option.map_some, if_pos (by simp [name_of_find? hfind])]
  · rw [if_neg hname]
    cases hfind : p.find? name with
    | none => rfl
    | some old =>
      have hold : old.name ≠ e.name := name_of_find? hfind ▸ hname
      simp [hold]

/-- What is found after a breaker was put in, unless there was one of its name. -/
theorem find?_insertNew :
    (p.insertNew e).find? name =
      if name = e.name then some ((p.find? name).getD e) else p.find? name := by
  rw [insertNew]
  cases hfind : p.find? e.name with
  | some old =>
    by_cases hname : name = e.name
    · rw [if_pos hname, hname, hfind]
      rfl
    · rw [if_neg hname]
  | none =>
    have happend : ({ p with engines := p.engines ++ [e] } : Panel).find? name =
        (p.find? name).or (if e.name == name then some e else none) := by
      rw [find?, List.find?_append, ← find?, List.find?_singleton]
    simp only [happend]
    by_cases hname : name = e.name
    · simp [hname, hfind]
    · simp [hname, Ne.symm hname]

/-- Names are put in at the end, and never twice. -/
theorem roll_insertNew :
    (p.insertNew e).roll = if e.name ∈ p.roll then p.roll else p.roll ++ [e.name] := by
  rw [insertNew]
  cases hfind : p.find? e.name with
  | some old => rw [if_pos (mem_roll_iff.2 ⟨old, hfind⟩)]
  | none =>
    rw [if_neg (find?_eq_none_iff.1 hfind), roll, List.map_append]
    rfl

theorem mem_insertNew {old : Engine} (h : old ∈ (p.insertNew e).engines) :
    old ∈ p.engines ∨ old = e := by
  rw [insertNew] at h
  split at h
  · exact .inl h
  · simpa using h

theorem settings_insertNew : (p.insertNew e).settings = p.settings := by
  rw [insertNew]
  split <;> rfl

theorem nodup_insertNew (h : p.roll.Nodup) : (p.insertNew e).roll.Nodup := by
  rw [roll_insertNew]
  split
  · exact h
  next hnew => exact h.append (List.nodup_singleton _) (List.disjoint_singleton.2 hnew)

/-- A breaker is built with the settings for its name, for the audience of the
panel. -/
theorem build_eq_ok (h : p.build now name = .ok e) :
    Engine.new? name (p.settings.limitsFor name).toPolicy p.audience now = some e := by
  simp only [build] at h
  split at h
  · split at h
    next engine hnew =>
      cases h
      exact hnew
    · cases h
  · cases h

/-- A breaker is found, or built and put in, or neither. -/
theorem get_cases (p : Panel) (now : Instant) (name : String) :
    (∃ e, p.find? name = some e ∧ p.get now name = .ok (p, false)) ∨
    (p.find? name = none ∧ ∃ e, p.build now name = .ok e ∧
      p.get now name = .ok (p.insertNew e, true)) ∨
    (p.find? name = none ∧ ∃ failure, p.get now name = .error failure) := by
  simp only [get]
  cases hfind : p.find? name with
  | some e => exact .inl ⟨e, rfl, rfl⟩
  | none =>
    cases hbuild : p.build now name with
    | ok e => exact .inr (.inl ⟨rfl, e, rfl, rfl⟩)
    | error failure => exact .inr (.inr ⟨rfl, failure, rfl⟩)

/-- A new panel has no breakers. -/
theorem find?_new (hpanel : Panel.new settings = .ok p) :
    p = { settings } ∧ ∀ name, p.find? name = none := by
  unfold Panel.new at hpanel
  split at hpanel <;> cases hpanel
  exact ⟨rfl, fun _ => rfl⟩

/-! ## Moves on breakers -/

/-- A move on the breaker of that name, and all deliveries that it leads to, with
a listener that only returns. -/
def stepQuiet (p : Panel) (now : Instant) (name : String) (move : Move) :
    Option (Panel × Engine.Response) := do
  let engine ← p.find? name
  let response ← engine.stepQuiet now move
  pure (p.put response.engine, response)

/-- The clock can hold the deadlines of every breaker of the settings. -/
def FitsAll (settings : Settings) (now : Instant) : Prop :=
  ∀ name, (settings.limitsFor name).toPolicy.Fits now

/-- Did a panic leave the method? -/
def isPanic : Reply → Bool
  | .panicked _ => true
  | _ => false

/-- The same move on several breakers, one after another, and what each
responds; a panic ends it. -/
def visit (now : Instant) (move : Move) :
    List String → Panel → Option (Panel × List (String × Engine.Response))
  | [], p => some (p, [])
  | name :: rest, p => do
    let (p, response) ← p.stepQuiet now name move
    if isPanic response.reply then pure (p, [(name, response)])
    else
      let (p, more) ← visit now move rest p
      pure (p, (name, response) :: more)

/-- The responses of one breaker. -/
def responsesOf (name : String) (responses : List (String × Engine.Response)) :
    List Engine.Response :=
  responses.filterMap fun entry => if entry.1 = name then some entry.2 else none

theorem stepQuiet_eq_some {p' : Panel} {r : Engine.Response}
    (h : p.stepQuiet now name move = some (p', r)) :
    ∃ e, p.find? name = some e ∧ e.stepQuiet now move = some r ∧ r.engine.name = name ∧
      p' = p.put r.engine := by
  simp only [stepQuiet, Option.bind_eq_bind, Option.bind_eq_some_iff, Option.pure_def,
    Option.some.injEq, Prod.mk.injEq] at h
  obtain ⟨e, hfind, r', hquiet, rfl, rfl⟩ := h
  have hbuilt : Engine.Built name e.policy e.audience e := ⟨name_of_find? hfind, rfl, rfl⟩
  exact ⟨e, hfind, hquiet, (hbuilt.stepQuiet hquiet).name_eq, rfl⟩

theorem stepQuiet_of_find? {r : Engine.Response} (hfind : p.find? name = some e)
    (hquiet : e.stepQuiet now move = some r) :
    p.stepQuiet now name move = some (p.put r.engine, r) := by
  simp [stepQuiet, hfind, hquiet]

/-- A move on one breaker is seen under its name, and nowhere else. -/
theorem find?_stepQuiet {p' : Panel} {r : Engine.Response}
    (h : p.stepQuiet now name move = some (p', r)) (other : String) :
    p'.find? other = if other = name then some r.engine else p.find? other := by
  obtain ⟨e, hfind, -, hname, rfl⟩ := stepQuiet_eq_some h
  rw [find?_put (hname ▸ mem_roll_iff.2 ⟨e, hfind⟩), hname]

/-- Moves change neither the settings nor the names. -/
theorem stepQuiet_keeps {p' : Panel} {r : Engine.Response}
    (h : p.stepQuiet now name move = some (p', r)) :
    p'.settings = p.settings ∧ p'.roll = p.roll := by
  obtain ⟨-, -, -, -, rfl⟩ := stepQuiet_eq_some h
  exact ⟨rfl, roll_put⟩

theorem visit_keeps {order : List String} {p' : Panel}
    {responses : List (String × Engine.Response)}
    (h : p.visit now move order = some (p', responses)) :
    p'.settings = p.settings ∧ p'.roll = p.roll := by
  induction order generalizing p responses with
  | nil =>
    cases h
    exact ⟨rfl, rfl⟩
  | cons name order ih =>
    rw [visit] at h
    obtain ⟨⟨p₁, r⟩, hstep, h⟩ := Option.bind_eq_some_iff.1 h
    have hfirst := stepQuiet_keeps hstep
    simp only at h
    split at h
    · cases h
      exact hfirst
    · obtain ⟨⟨p₂, more⟩, hrest, h⟩ := Option.bind_eq_some_iff.1 h
      cases h
      obtain ⟨hsettings, hroll⟩ := ih hrest
      exact ⟨hsettings.trans hfirst.1, hroll.trans hfirst.2⟩

/-! ## Visits -/

/-- The breaker of that name can make the move, and will not panic. -/
def Ready (p : Panel) (now : Instant) (move : Move) (name : String) : Prop :=
  ∃ e r, p.find? name = some e ∧ e.stepQuiet now move = some r ∧ isPanic r.reply = false

/-- Breakers whose deadlines the clock can hold are ready for every move that
always makes sense. -/
theorem ready_of_fits (hfits : ∀ e, p.find? name = some e → e.policy.Fits now)
    (hmove : move = .query ∨ move = .reset) (hname : name ∈ p.roll) : p.Ready now move name := by
  obtain ⟨e, hfind⟩ := mem_roll_iff.1 hname
  obtain ⟨r, hquiet, hreturns⟩ := Engine.stepQuiet_asked (hfits e hfind) hmove
  refine ⟨e, r, hfind, hquiet, ?_⟩
  generalize r.reply = reply at hreturns
  rcases hmove with rfl | rfl <;> cases hreturns <;> rfl

/-- What a visit does. -/
structure Visited (p : Panel) (now : Instant) (move : Move) (order : List String) (p' : Panel)
    (responses : List (String × Engine.Response)) : Prop where
  /-- Each breaker of the order makes one move. -/
  visits : ∀ name ∈ order, ∃ e r, p.find? name = some e ∧ e.stepQuiet now move = some r ∧
    p'.find? name = some r.engine ∧ responsesOf name responses = [r] ∧ isPanic r.reply = false
  /-- The others are left alone. -/
  passes : ∀ name ∉ order, p'.find? name = p.find? name ∧ responsesOf name responses = []
  order_eq : responses.map Prod.fst = order

theorem visited_nil : p.Visited now move [] p [] where
  visits := nofun
  passes _ _ := ⟨rfl, rfl⟩
  order_eq := rfl

theorem Visited.cons {order : List String} {p₁ p' : Panel} {r : Engine.Response}
    {responses : List (String × Engine.Response)} (hnew : name ∉ order)
    (hstep : p.stepQuiet now name move = some (p₁, r)) (hpanic : isPanic r.reply = false)
    (h : p₁.Visited now move order p' responses) :
    p.Visited now move (name :: order) p' ((name, r) :: responses) where
  visits other hother := by
    have hfound := find?_stepQuiet hstep other
    rcases List.mem_cons.1 hother with rfl | hrest
    · obtain ⟨e, hfind, hquiet, -, -⟩ := stepQuiet_eq_some hstep
      obtain ⟨hkept, hnone⟩ := h.passes other hnew
      rw [if_pos rfl] at hfound
      exact ⟨e, r, hfind, hquiet, hkept.trans hfound, by simpa [responsesOf] using hnone, hpanic⟩
    · have hne : other ≠ name := ne_of_mem_of_not_mem hrest hnew
      obtain ⟨e, r', hfind, hquiet, hafter, hone, hreturned⟩ := h.visits other hrest
      rw [if_neg hne] at hfound
      refine ⟨e, r', hfound ▸ hfind, hquiet, hafter, ?_, hreturned⟩
      rw [responsesOf, List.filterMap_cons_none (by simp [Ne.symm hne])]
      exact hone
  passes other hother := by
    rw [List.mem_cons, not_or] at hother
    obtain ⟨hne, hrest⟩ := hother
    obtain ⟨hkept, hnone⟩ := h.passes other hrest
    refine ⟨by rw [hkept, find?_stepQuiet hstep, if_neg hne], ?_⟩
    rw [responsesOf, List.filterMap_cons_none (by simp [Ne.symm hne])]
    exact hnone
  order_eq := by rw [List.map_cons, h.order_eq]

/-- When all breakers of the order are ready, the visit comes to its end. -/
theorem visit_of_ready {order : List String} (hnodup : order.Nodup)
    (hready : ∀ name ∈ order, p.Ready now move name) :
    ∃ p' responses, p.visit now move order = some (p', responses) ∧
      p.Visited now move order p' responses := by
  induction order generalizing p with
  | nil => exact ⟨p, [], rfl, visited_nil⟩
  | cons name order ih =>
    obtain ⟨hnew, hnodup⟩ := List.nodup_cons.1 hnodup
    obtain ⟨⟨e, r, hfind, hquiet, hpanic⟩, hrest⟩ := List.forall_mem_cons.1 hready
    have hstep := stepQuiet_of_find? hfind hquiet
    -- The move on the first breaker leaves the others as they are.
    have hstill : ∀ other ∈ order, (p.put r.engine).Ready now move other := by
      intro other hother
      obtain ⟨e', r', hfind', hquiet', hpanic'⟩ := hrest other hother
      have hne : other ≠ name := ne_of_mem_of_not_mem hother hnew
      refine ⟨e', r', ?_, hquiet', hpanic'⟩
      rw [find?_stepQuiet hstep, if_neg hne, hfind']
    obtain ⟨p', responses, hvisit, hvisited⟩ := ih hnodup hstill
    refine ⟨p', (name, r) :: responses, ?_, hvisited.cons hnew hstep hpanic⟩
    simp [visit, hstep, hpanic, hvisit]

/-! ## What clients do -/

/-- What clients do with a panel and with the breakers that it has handed out.
The two acts on all breakers name them in the order in which they are visited,
which is any. -/
inductive Act where
  | get (name : String)
  | on (name : String) (move : Move)
  | snapshots (order : List String)
  | resetAll (order : List String)
  | size
  /-- Changes who is told by breakers still to be built. -/
  | listen (audience : Audience)

/-- What a client gets back. -/
inductive Answer where
  /-- There is a breaker, built just now or not. -/
  | got (isNew : Bool)
  | failed (failure : Failure)
  | reply (reply : Reply)
  /-- What each breaker shows, in ascending order of names. -/
  | listing (views : List (String × View))
  | wasReset
  | number (n : Nat)
  | heeded
  /-- A panic left the visit of the breakers. -/
  | panicked

/-- What an act makes of a panel, with the responses of the breakers that it
asked. -/
structure Done where
  panel : Panel
  answer : Answer
  responses : List (String × Engine.Response) := []

/-- The replies of breakers. -/
def repliesOf (responses : List (String × Engine.Response)) : List (String × Reply) :=
  responses.map fun entry => (entry.1, entry.2.reply)

/-- The views among replies, in ascending order of names. -/
def listingOf (replies : List (String × Reply)) : List (String × View) :=
  (replies.filterMap Scenario.viewOf).mergeSort fun a b => decide (a.1 ≤ b.1)

theorem perm_listingOf (replies : List (String × Reply)) :
    (listingOf replies).Perm (replies.filterMap Scenario.viewOf) :=
  List.mergeSort_perm _ _

/-- What is sorted by its names is in ascending order of them. -/
theorem sorted_mergeSort {α : Type} (key : α → String) (l : List α) :
    (l.mergeSort fun a b => decide (key a ≤ key b)).Pairwise fun a b => key a ≤ key b := by
  have hsorted : (l.mergeSort fun a b => decide (key a ≤ key b)).Pairwise
      fun a b => decide (key a ≤ key b) := by
    refine List.pairwise_mergeSort ?trans ?total l
    case trans =>
      intro a b c hab hbc
      exact decide_eq_true (String.le_trans (of_decide_eq_true hab) (of_decide_eq_true hbc))
    case total =>
      intro a b
      simpa using String.le_total (key a) (key b)
  exact hsorted.imp of_decide_eq_true

theorem sorted_listingOf (replies : List (String × Reply)) :
    (listingOf replies).Pairwise fun a b => a.1 ≤ b.1 :=
  sorted_mergeSort Prod.fst _

theorem fst_of_viewOf {entry : String × Reply} {view : String × View}
    (h : Scenario.viewOf entry = some view) : view.1 = entry.1 := by
  obtain ⟨name, reply⟩ := entry
  cases reply <;> cases h
  rfl

/-- Replies in ascending order need not be sorted. -/
theorem listingOf_of_sorted {replies : List (String × Reply)}
    (h : (replies.map Prod.fst).Pairwise (· ≤ ·)) :
    listingOf replies = replies.filterMap Scenario.viewOf := by
  refine List.mergeSort_of_pairwise ?_
  refine List.Pairwise.filterMap Scenario.viewOf ?_ (List.pairwise_map.1 h)
  intro a b hab v hv v' hv'
  rw [fst_of_viewOf hv, fst_of_viewOf hv']
  exact decide_eq_true hab

/-- The answer of a visit: a panic, or what it came for. -/
def answerOf (answer : Answer) (responses : List (String × Engine.Response)) : Answer :=
  if (repliesOf responses).any fun entry => isPanic entry.2 then .panicked else answer

/-- One act; a visit goes to every breaker once. -/
def act (p : Panel) (now : Instant) : Act → Option Done
  | .get name =>
    match p.get now name with
    | .ok (p, isNew) => some { panel := p, answer := .got isNew }
    | .error failure => some { panel := p, answer := .failed failure }
  | .on name move =>
    (p.stepQuiet now name move).map fun (p, response) =>
      { panel := p, answer := .reply response.reply, responses := [(name, response)] }
  | .snapshots order =>
    if order.Perm p.roll then
      (p.visit now .query order).map fun (p, responses) =>
        { panel := p, answer := answerOf (.listing (listingOf (repliesOf responses))) responses,
          responses }
    else none
  | .resetAll order =>
    if order.Perm p.roll then
      (p.visit now .reset order).map fun (p, responses) =>
        { panel := p, answer := answerOf .wasReset responses, responses }
    else none
  | .size => some { panel := p, answer := .number p.size }
  | .listen audience => some { panel := { p with audience }, answer := .heeded }

/-- The two acts on all breakers must name each of them once. -/
theorem perm_of_visit {done : Done} {order : List String}
    (h : p.act now (.snapshots order) = some done ∨ p.act now (.resetAll order) = some done) :
    order.Perm p.roll := by
  by_contra hperm
  rcases h with h | h <;> simp [act, if_neg hperm] at h

theorem mem_responsesOf {entry : String × Engine.Response}
    {responses : List (String × Engine.Response)} (h : entry ∈ responses) :
    entry.2 ∈ responsesOf entry.1 responses :=
  List.mem_filterMap.2 ⟨entry, h, if_pos rfl⟩

/-- A name is listed with the view that its breaker answered. -/
theorem mem_listingOf {responses : List (String × Engine.Response)} {v : View} :
    (name, v) ∈ listingOf (repliesOf responses) ↔
      ∃ r ∈ responsesOf name responses, r.reply = .view v := by
  rw [(perm_listingOf _).mem_iff, List.mem_filterMap]
  constructor
  · rintro ⟨_, hmem, hview⟩
    obtain ⟨⟨other, r⟩, hentry, rfl⟩ := List.mem_map.1 hmem
    obtain rfl : name = other := fst_of_viewOf hview
    refine ⟨r, mem_responsesOf hentry, ?_⟩
    generalize r.reply = reply at hview ⊢
    cases reply <;> cases hview
    rfl
  · rintro ⟨r, hmem, hreply⟩
    obtain ⟨⟨other, r'⟩, hentry, heq⟩ := List.mem_filterMap.1 hmem
    simp only [Option.ite_none_right_eq_some, Option.some.injEq] at heq
    obtain ⟨rfl, rfl⟩ := heq
    refine ⟨_, List.mem_map_of_mem hentry, ?_⟩
    rw [hreply]
    rfl

/-- A visit that nothing panics in has the answer that it came for. -/
theorem Visited.answerOf_eq {order : List String} {p' : Panel}
    {responses : List (String × Engine.Response)}
    (h : p.Visited now move order p' responses) (answer : Answer) :
    answerOf answer responses = answer := by
  rw [answerOf, if_neg]
  simp only [repliesOf, List.any_map, List.any_eq_true, not_exists, not_and]
  intro entry hmem hpanic
  have hname : entry.1 ∈ order := h.order_eq ▸ List.mem_map_of_mem hmem
  obtain ⟨e, r, -, -, -, hone, hreturned⟩ := h.visits entry.1 hname
  have hentry := mem_responsesOf hmem
  rw [hone, List.mem_singleton] at hentry
  rw [Function.comp_apply, hentry, hreturned] at hpanic
  cases hpanic

/-- The views of all breakers, in whatever order they are visited. -/
theorem act_snapshots {order : List String} (hperm : order.Perm p.roll) (hnodup : p.roll.Nodup)
    (hready : ∀ name ∈ p.roll, p.Ready now .query name) :
    ∃ p' responses, p.act now (.snapshots order) =
        some { panel := p', answer := .listing (listingOf (repliesOf responses)), responses } ∧
      p.visit now .query order = some (p', responses) ∧
      p.Visited now .query order p' responses := by
  obtain ⟨p', responses, hvisit, hvisited⟩ := visit_of_ready (hperm.nodup_iff.2 hnodup)
    fun name hname => hready name (hperm.mem_iff.1 hname)
  refine ⟨p', responses, ?_, hvisit, hvisited⟩
  simp [act, if_pos hperm, hvisit, hvisited.answerOf_eq]

theorem map_fst_filterMap {replies : List (String × Reply)}
    (h : ∀ entry ∈ replies, ∃ v, entry.2 = .view v) :
    (replies.filterMap Scenario.viewOf).map Prod.fst = replies.map Prod.fst := by
  induction replies with
  | nil => rfl
  | cons entry replies ih =>
    obtain ⟨⟨v, hview⟩, hrest⟩ := List.forall_mem_cons.1 h
    obtain ⟨name, reply⟩ := entry
    obtain rfl : reply = .view v := hview
    rw [List.filterMap_cons_some (show Scenario.viewOf (name, .view v) = some (name, v) from rfl),
      List.map_cons, List.map_cons, ih hrest]

/-- Every breaker is listed once, in ascending order of the names. -/
theorem act_listing {order : List String} (hperm : order.Perm p.roll) (hnodup : p.roll.Nodup)
    (hfits : ∀ name e, p.find? name = some e → e.policy.Fits now) :
    ∃ p' views responses,
      p.act now (.snapshots order) = some { panel := p', answer := .listing views, responses } ∧
        (views.map Prod.fst).Pairwise (· < ·) ∧ (views.map Prod.fst).Perm p.roll := by
  obtain ⟨p', responses, hact, -, hvisited⟩ := act_snapshots hperm hnodup
    fun name => ready_of_fits (hfits name) (.inl rfl)
  refine ⟨p', _, responses, hact, ?_⟩
  have hviews : ∀ entry ∈ repliesOf responses, ∃ v, entry.2 = .view v := by
    rintro _ hmem
    obtain ⟨⟨name, r⟩, hentry, rfl⟩ := List.mem_map.1 hmem
    obtain ⟨e, r', hfind, hquiet, -, hone, -⟩ :=
      hvisited.visits name (hvisited.order_eq ▸ List.mem_map_of_mem hentry)
    obtain rfl : r = r' := by simpa [hone] using mem_responsesOf hentry
    obtain ⟨r'', hquiet', hreturns⟩ := Engine.stepQuiet_asked (hfits name e hfind) (.inl rfl)
    obtain rfl := Option.some.inj (hquiet.symm.trans hquiet')
    generalize r.reply = reply at hreturns ⊢
    cases hreturns with
    | query v => exact ⟨v, rfl⟩
  have hnames : ((listingOf (repliesOf responses)).map Prod.fst).Perm p.roll := by
    refine ((perm_listingOf _).map Prod.fst).trans ?_
    rw [map_fst_filterMap hviews, repliesOf, List.map_map]
    exact (List.Perm.of_eq hvisited.order_eq).trans hperm
  refine ⟨?_, hnames⟩
  have hle := List.pairwise_map.2 (sorted_listingOf (repliesOf responses))
  have hne := hnames.nodup_iff.2 hnodup
  refine (hle.and hne).imp fun h => ?_
  exact String.not_le.1 fun hge => h.2 (String.le_antisymm h.1 hge)

/-- All breakers are reset, in whatever order. -/
theorem act_resetAll {order : List String} (hperm : order.Perm p.roll) (hnodup : p.roll.Nodup)
    (hready : ∀ name ∈ p.roll, p.Ready now .reset name) :
    ∃ p' responses, p.act now (.resetAll order) =
        some { panel := p', answer := .wasReset, responses } ∧
      p.visit now .reset order = some (p', responses) ∧
      p.Visited now .reset order p' responses := by
  obtain ⟨p', responses, hvisit, hvisited⟩ := visit_of_ready (hperm.nodup_iff.2 hnodup)
    fun name hname => hready name (hperm.mem_iff.1 hname)
  refine ⟨p', responses, ?_, hvisit, hvisited⟩
  simp [act, if_pos hperm, hvisit, hvisited.answerOf_eq]

/-- Acts keep the settings, and no name ever stands twice. -/
theorem act_keeps {done : Done} {act : Act} (h : p.act now act = some done)
    (hnodup : p.roll.Nodup) : done.panel.settings = p.settings ∧ done.panel.roll.Nodup := by
  cases act with
  | get name =>
    rcases get_cases p now name with ⟨e, -, hget⟩ | ⟨-, e, -, hget⟩ | ⟨-, failure, hget⟩ <;>
      simp only [Panel.act, hget, Option.some.injEq] at h <;> rw [← h]
    · exact ⟨rfl, hnodup⟩
    · exact ⟨settings_insertNew, nodup_insertNew hnodup⟩
    · exact ⟨rfl, hnodup⟩
  | on name move =>
    obtain ⟨⟨p', r⟩, hstep, rfl⟩ := Option.map_eq_some_iff.1 h
    obtain ⟨hsettings, hroll⟩ := stepQuiet_keeps hstep
    exact ⟨hsettings, hroll ▸ hnodup⟩
  | snapshots order =>
    simp only [Panel.act, if_pos (perm_of_visit (.inl h))] at h
    obtain ⟨⟨p', responses⟩, hvisit, rfl⟩ := Option.map_eq_some_iff.1 h
    obtain ⟨hsettings, hroll⟩ := visit_keeps hvisit
    exact ⟨hsettings, hroll ▸ hnodup⟩
  | resetAll order =>
    simp only [Panel.act, if_pos (perm_of_visit (.inr h))] at h
    obtain ⟨⟨p', responses⟩, hvisit, rfl⟩ := Option.map_eq_some_iff.1 h
    obtain ⟨hsettings, hroll⟩ := visit_keeps hvisit
    exact ⟨hsettings, hroll ▸ hnodup⟩
  | size =>
    cases h
    exact ⟨rfl, hnodup⟩
  | listen audience =>
    cases h
    exact ⟨rfl, hnodup⟩

/-! ## Scripts -/

theorem put_put {e' : Engine} (hname : e'.name = e.name) : (p.put e).put e' = p.put e' := by
  simp only [put, List.map_map, Panel.mk.injEq, true_and]
  refine List.map_congr_left fun old _ => ?_
  by_cases hold : old.name = e.name <;> simp [hold, hname]

section

open Scenario

variable {w : World}

/-- A listener without reactions only records. -/
theorem hear_of_nil (hreactions : w.reactions = []) (name : String) (t : Transition) :
    ∃ events, hear name t w = ({ w with events }, none) := by
  obtain ⟨clock, panel, futures, reactions, events, notes⟩ := w
  subst hreactions
  simp only [hear]
  split
  · exact ⟨_, rfl⟩
  · exact ⟨_, rfl⟩

/-- A move of a script that finds its breaker. -/
theorem send_of_step {r : Engine.Response} (hfind : w.panel.find? name = some e)
    (hstep : e.step w.clock move = some r) :
    ∃ notes, w.send name move = ({ w with panel := w.panel.put r.engine, notes }, r.reply) := by
  have hpanel : w.panel.step w.clock name move = some (w.panel.put r.engine, r) := by
    simp [Panel.step, hfind, hstep]
  simp only [World.send, hpanel]
  exact ⟨_, rfl⟩

/-- The listener is called, and returns, as often as the method demands. -/
theorem attend_eq_settleQuiet {r : Engine.Response} (hreactions : w.reactions = [])
    (hmem : r.engine.name ∈ p.roll) (hpanel : w.panel = p.put r.engine) (hproper : r.engine.Proper)
    (htop : r.OnTop) (fuel : Nat) :
    ∃ events notes, World.attend hear r.engine.name fuel (w, r.reply) =
      ({ w with panel := p.put (r.settleQuiet w.clock fuel).engine, events, notes },
        (r.settleQuiet w.clock fuel).reply) := by
  induction fuel generalizing w r with
  | zero =>
    refine ⟨w.events, w.notes, ?_⟩
    rw [Engine.Response.settleQuiet, ← hpanel]
    cases r.reply <;> rfl
  | succ fuel ih =>
    cases hreply : r.reply with
    | listening t =>
      obtain ⟨sequel, frames, hframes⟩ := htop t hreply
      obtain ⟨events, hhear⟩ := hear_of_nil hreactions r.engine.name t
      have hstep : r.engine.step w.clock .heard = some
          (({ r.engine with frames } : Engine).follow sequel []
            (Courier.proceed r.engine.mailbox)) := by
        simp [Engine.step, hframes]
      generalize ({ r.engine with frames } : Engine).follow sequel []
        (Courier.proceed r.engine.mailbox) = next at hstep
      have took := Engine.step_took hstep
      have hname : next.engine.name = r.engine.name := took.name_eq
      have hfind : w.panel.find? r.engine.name = some r.engine := by
        rw [hpanel, find?_put hmem, if_pos rfl]
      obtain ⟨notes, hsend⟩ := send_of_step (w := { w with events }) hfind hstep
      have hafter : w.panel.put next.engine = p.put next.engine := by
        rw [hpanel, put_put hname]
      obtain ⟨events', notes', hrest⟩ := ih
        (w := { w with panel := w.panel.put next.engine, events, notes })
        (r := { next with journal := r.journal ++ next.journal })
        hreactions (hname ▸ hmem) hafter (took.proper hproper) (took.onTop hproper)
      refine ⟨events', notes', ?_⟩
      simp only [World.attend, hhear, hsend, Engine.Response.settleQuiet, hreply, hstep]
      rw [← hname]
      exact hrest
    | _ =>
      refine ⟨w.events, w.notes, ?_⟩
      simp only [Engine.Response.settleQuiet, hreply, ← hpanel]
      rfl

/-- A move of a script, with all deliveries that it leads to, is one of the
panel. -/
theorem perform_eq_stepQuiet {p' : Panel} {r : Engine.Response} (hreactions : w.reactions = [])
    (hproper : ∀ e, w.panel.find? name = some e → e.Proper)
    (hstep : w.panel.stepQuiet w.clock name move = some (p', r)) :
    ∃ events notes, w.perform hear name move =
      ({ w with panel := p', events, notes }, r.reply) := by
  obtain ⟨e, hfind, hquiet, hname, rfl⟩ := stepQuiet_eq_some hstep
  obtain ⟨first, hfirst, rfl⟩ := Option.map_eq_some_iff.1 hquiet
  obtain ⟨notes, hsend⟩ := send_of_step hfind hfirst
  have took := Engine.step_took hfirst
  have hsame : first.engine.name = name := took.name_eq.trans (name_of_find? hfind)
  have hmem : first.engine.name ∈ w.panel.roll := hsame ▸ mem_roll_iff.2 ⟨e, hfind⟩
  obtain ⟨events', notes', hattend⟩ := attend_eq_settleQuiet
    (w := { w with panel := w.panel.put first.engine, notes }) hreactions hmem rfl
    (took.proper (hproper e hfind)) (took.onTop (hproper e hfind))
    (first.engine.mailbox.pending.length + 1)
  refine ⟨events', notes', ?_⟩
  have hpatience : ({ w with panel := w.panel.put first.engine, notes } : World).patience name =
      first.engine.mailbox.pending.length + 1 := by
    simp [World.patience, World.engine?, find?_put hmem, hsame, hreactions]
  simp only [World.perform, hsend, hpatience]
  rw [← hsame]
  exact hattend

/-- A visit of a script is one of the panel. -/
theorem performAll_eq_visit {order : List String} (hreactions : w.reactions = [])
    (hnodup : order.Nodup) (hready : ∀ name ∈ order, w.panel.Ready w.clock move name)
    (hproper : ∀ name ∈ order, ∀ e, w.panel.find? name = some e → e.Proper) :
    ∃ p' responses events notes, w.panel.visit w.clock move order = some (p', responses) ∧
      performAll move order w =
        ({ w with panel := p', events, notes }, .ok (repliesOf responses)) := by
  induction order generalizing w with
  | nil => exact ⟨w.panel, [], w.events, w.notes, rfl, rfl⟩
  | cons name order ih =>
    obtain ⟨hnew, hnodup⟩ := List.nodup_cons.1 hnodup
    obtain ⟨⟨e, r, hfind, hquiet, hpanic⟩, hrest⟩ := List.forall_mem_cons.1 hready
    obtain ⟨hfirst, hproper⟩ := List.forall_mem_cons.1 hproper
    have hstep := stepQuiet_of_find? hfind hquiet
    obtain ⟨events, notes, hperform⟩ := perform_eq_stepQuiet hreactions hfirst hstep
    have hfound : ∀ other ∈ order,
        (w.panel.put r.engine).find? other = w.panel.find? other := fun other hother => by
      rw [find?_stepQuiet hstep, if_neg (ne_of_mem_of_not_mem hother hnew)]
    obtain ⟨p', responses, events', notes', hvisit, hall⟩ :=
      ih (w := { w with panel := w.panel.put r.engine, events, notes }) hreactions hnodup
        (fun other hother => by
          obtain ⟨e', r', hfind', hready'⟩ := hrest other hother
          exact ⟨e', r', (hfound other hother).trans hfind', hready'⟩)
        (fun other hother e' hfind' =>
          hproper other hother e' ((hfound other hother).symm.trans hfind'))
    refine ⟨p', (name, r) :: responses, events', notes', ?_, ?_⟩
    · simp [visit, hstep, hpanic, hvisit]
    · cases hreply : r.reply with
      | panicked text =>
        rw [hreply] at hpanic
        cases hpanic
      | _ => simp [performAll, hperform, hreply, hall, repliesOf, Except.map]

theorem names_perm (p : Panel) : p.names.Perm p.roll := List.mergeSort_perm _ _

theorem names_sorted (p : Panel) : p.names.Pairwise (· ≤ ·) := sorted_mergeSort id p.roll

/-- A script that asks for all views visits the breakers in ascending order. -/
theorem runPanelStep_snapshots (hreactions : w.reactions = []) (hnodup : w.panel.roll.Nodup)
    (hready : ∀ name ∈ w.panel.roll, w.panel.Ready w.clock .query name)
    (hproper : ∀ name e, w.panel.find? name = some e → e.Proper) :
    ∃ p' views responses events notes,
      w.panel.act w.clock (.snapshots w.panel.names) =
          some { panel := p', answer := .listing views, responses } ∧
        runPanelStep .snapshots w = ({ w with panel := p', events, notes }, .snapshots views) := by
  have hperm := names_perm w.panel
  obtain ⟨p', responses, hact, hvisit, hvisited⟩ := act_snapshots hperm hnodup hready
  obtain ⟨p'', responses', events, notes, hvisit', hall⟩ := performAll_eq_visit hreactions
    (hperm.nodup_iff.2 hnodup) (fun name hname => hready name (hperm.mem_iff.1 hname))
    (fun name _ => hproper name)
  obtain ⟨rfl, rfl⟩ := Prod.mk.inj (Option.some.inj (hvisit.symm.trans hvisit'))
  have hnames : (repliesOf responses).map Prod.fst = w.panel.names := by
    rw [repliesOf, List.map_map, ← hvisited.order_eq]
    rfl
  refine ⟨p', _, responses, events, notes, hact, ?_⟩
  rw [listingOf_of_sorted (hnames ▸ names_sorted w.panel)]
  simp only [runPanelStep, hall]

/-- A script resets the breakers in ascending order of their names. -/
theorem runPanelStep_resetAll (hreactions : w.reactions = []) (hnodup : w.panel.roll.Nodup)
    (hready : ∀ name ∈ w.panel.roll, w.panel.Ready w.clock .reset name)
    (hproper : ∀ name e, w.panel.find? name = some e → e.Proper) :
    ∃ p' responses events notes,
      w.panel.act w.clock (.resetAll w.panel.names) =
          some { panel := p', answer := .wasReset, responses } ∧
        runPanelStep .resetAll w = ({ w with panel := p', events, notes }, .wasReset) := by
  have hperm := names_perm w.panel
  obtain ⟨p', responses, hact, hvisit, -⟩ := act_resetAll hperm hnodup hready
  obtain ⟨p'', responses', events, notes, hvisit', hall⟩ := performAll_eq_visit hreactions
    (hperm.nodup_iff.2 hnodup) (fun name hname => hready name (hperm.mem_iff.1 hname))
    (fun name _ => hproper name)
  obtain ⟨rfl, rfl⟩ := Prod.mk.inj (Option.some.inj (hvisit.symm.trans hvisit'))
  refine ⟨p', responses, events, notes, hact, ?_⟩
  simp only [runPanelStep, hall]

/-- A script gets its breakers as a client does. -/
theorem obtain_eq_get (w : World) (name : String) :
    (∃ done notes, w.panel.act w.clock (.get name) = some done ∧
      (∃ isNew, done.answer = .got isNew) ∧
      w.obtain name = ({ w with panel := done.panel, notes }, .ok ())) ∨
    ∃ failure, w.panel.act w.clock (.get name) =
        some { panel := w.panel, answer := .failed failure } ∧
      w.obtain name = (w, .error failure) := by
  cases hget : w.panel.get w.clock name with
  | ok got =>
    obtain ⟨p', isNew⟩ := got
    left
    simp only [act, World.obtain, hget]
    exact ⟨_, _, rfl, ⟨isNew, rfl⟩, rfl⟩
  | error failure =>
    right
    simp only [act, World.obtain, hget]
    exact ⟨failure, rfl, rfl⟩

end

end Breaker.Panel
