import Breaker.Settings.Fault
import Mathlib.Algebra.Order.Field.Basic
import Mathlib.Algebra.Order.Field.Rat
import Mathlib.Data.List.Nodup

/-!
# Every fault of settings, and no other

The check of settings goes through the overrides once, with the names that it
has met so far.  What it reports is said here without that walk.

* `Binary64.InUnit` says of a number, by its value, that it lies in `(0, 1]`, and
  `usableThreshold_iff` that the check of a threshold decides this.
* `Settings.Usable` says what settings without faults are, and
  `faults_eq_nil_iff` that the check passes these and no others.
* `Settings.allFaults` lists all that is wrong, each override beside those before
  it, and `faults_eq_allFaults` says that this is what the check reports.
* `count_duplicateName` counts the reports of a name that stands several times.
-/

namespace Breaker

/-! ## Thresholds -/

namespace Binary64

/-- The value of a finite number. -/
def value? : Binary64 → Option ℚ
  | .finite negative units => some (signed negative units / unitsPerOne)
  | _ => none

/-- The number lies in `(0, 1]`, which `nan` and the infinities do not. -/
def InUnit (t : Binary64) : Prop := ∃ q, t.value? = some q ∧ 0 < q ∧ q ≤ 1

theorem unitsPerOne_pos : 0 < unitsPerOne := by decide +kernel

/-- The order of the values is that of the counts of units. -/
theorem inUnit_finite {negative : Bool} {units : Nat} :
    (finite negative units).InUnit ↔
      0 < signed negative units ∧ signed negative units ≤ unitsPerOne := by
  have hpos := unitsPerOne_pos
  simp only [InUnit, value?, Option.some.injEq, exists_eq_left']
  -- The number of units in one has hundreds of digits; all that counts is its sign.
  generalize unitsPerOne = one at hpos ⊢
  have hone : (0 : ℚ) < one := Nat.cast_pos.2 hpos
  rw [div_pos_iff_of_pos_right hone, div_le_one hone, Int.cast_pos]
  norm_cast

end Binary64

namespace Policy

theorem usableThreshold_iff {t : Binary64} : usableThreshold t = true ↔ t.InUnit := by
  cases t with
  | nan => simp [usableThreshold, Binary64.lt, Binary64.le, Binary64.InUnit, Binary64.value?]
  | infinity negative =>
    cases negative <;>
      simp [usableThreshold, Binary64.lt, Binary64.le, Binary64.InUnit, Binary64.value?,
        Binary64.zero, Binary64.one]
  | finite negative units =>
    have hzero : Binary64.signed false 0 = 0 := rfl
    have hone : Binary64.signed false Binary64.unitsPerOne = Binary64.unitsPerOne := rfl
    rw [Binary64.inUnit_finite, usableThreshold, Binary64.lt, Binary64.zero, Binary64.one,
      Binary64.le, Binary64.le, Binary64.le, hzero, hone]
    simp only [Bool.and_eq_true, Bool.not_eq_true', decide_eq_true_eq, decide_eq_false_iff_not]
    omega

end Policy

instance (t : Binary64) : Decidable t.InUnit := decidable_of_iff _ Policy.usableThreshold_iff

/-- A text that is not blank has a character in it that shows. -/
theorem Text.isBlank_eq_false_iff {s : String} :
    isBlank s = false ↔ ∃ c ∈ s.toList, isSpace c = false := by
  simp [isBlank, List.all_eq_false]

theorem Policy.faults_eq_nil_iff {policy : Policy} {name : String} :
    policy.faults name = [] ↔
      Text.isBlank name = false ∧ 1 ≤ policy.probeLimit ∧ policy.threshold.InUnit := by
  simp [Policy.faults, usableThreshold_iff, Nat.one_le_iff_ne_zero]

namespace Settings

variable {settings : Settings} {seen : List String} {entries : List (String × Limits)}

/-! ## Settings without faults -/

/-- Settings that will do. -/
structure Usable (settings : Settings) : Prop where
  probeLimit : 1 ≤ settings.defaults.probeLimit
  threshold : settings.defaults.threshold.InUnit
  named : ∀ o ∈ settings.breakers, ∃ c ∈ o.name.toList, Text.isSpace c = false
  distinct : (settings.breakers.map Override.name).Nodup
  probeLimits : ∀ o ∈ settings.breakers, 1 ≤ o.probeLimit.getD settings.defaults.probeLimit
  thresholds : ∀ o ∈ settings.breakers,
    (o.threshold.getD settings.defaults.threshold).InUnit

/-- A walk reports nothing when every name is new to it, and no breaker has a
fault of its own. -/
theorem faultsOf_eq_nil_iff :
    faultsOf seen entries = [] ↔
      (∀ e ∈ entries, e.1 ∉ seen ∧ e.2.toPolicy.faults e.1 = []) ∧
        (entries.map Prod.fst).Nodup := by
  induction entries generalizing seen with
  | nil => simp [faultsOf]
  | cons e entries ih =>
    obtain ⟨name, limits⟩ := e
    have hnew : (if seen.contains name then [Fault.duplicateName name] else []) = [] ↔
        name ∉ seen := by simp
    rw [faultsOf, List.append_eq_nil_iff, List.append_eq_nil_iff, hnew, ih, List.forall_mem_cons,
      List.map_cons, List.nodup_cons]
    constructor
    · rintro ⟨hfirst, hrest, hnodup⟩
      simp only [List.mem_cons, not_or] at hrest
      refine ⟨⟨hfirst, fun e he => ⟨(hrest e he).1.2, (hrest e he).2⟩⟩, fun hmem => ?_, hnodup⟩
      obtain ⟨e, he, hname⟩ := List.mem_map.1 hmem
      exact (hrest e he).1.1 hname
    · rintro ⟨⟨hfirst, hrest⟩, hname, hnodup⟩
      refine ⟨hfirst, fun e he => ⟨?_, (hrest e he).2⟩, hnodup⟩
      rw [List.mem_cons, not_or]
      refine ⟨fun heq => hname ?_, (hrest e he).1⟩
      exact List.mem_map.2 ⟨e, he, heq⟩

/-- The check passes usable settings, and no others. -/
theorem faults_eq_nil_iff : settings.faults = [] ↔ settings.Usable := by
  have hdefaults : Text.isBlank "defaults" = false := by decide
  simp only [faults, List.append_eq_nil_iff, Policy.faults_eq_nil_iff, faultsOf_eq_nil_iff,
    effective, List.forall_mem_map, List.map_map, hdefaults, Text.isBlank_eq_false_iff,
    List.not_mem_nil, not_false_eq_true, true_and]
  constructor
  · rintro ⟨⟨hlimit, hthreshold⟩, hbreakers, hdistinct⟩
    exact ⟨hlimit, hthreshold, fun o ho => (hbreakers o ho).1, hdistinct,
      fun o ho => (hbreakers o ho).2.1, fun o ho => (hbreakers o ho).2.2⟩
  · intro h
    exact ⟨⟨h.probeLimit, h.threshold⟩,
      fun o ho => ⟨h.named o ho, h.probeLimits o ho, h.thresholds o ho⟩, h.distinct⟩

/-! ## All that is wrong -/

/-- What is wrong with a probe limit and a threshold. -/
def limitFaults (name : String) (probeLimit : Nat) (threshold : Binary64) : List Fault :=
  (if probeLimit = 0 then [.probeLimit name] else []) ++
    (if threshold.InUnit then [] else [.threshold name threshold])

/-- What is wrong with an override that comes after the overrides `before`. -/
def faultsAfter (settings : Settings) (before : List Override) (o : Override) : List Fault :=
  (if ∃ earlier ∈ before, earlier.name = o.name then [.duplicateName o.name] else []) ++
    (if o.name.toList.all Text.isSpace then [.emptyName] else []) ++
    limitFaults o.name (o.probeLimit.getD settings.defaults.probeLimit)
      (o.threshold.getD settings.defaults.threshold)

/-- All that is wrong with settings: first with the defaults, then with each
override, in the order of the file. -/
def allFaults (settings : Settings) : List Fault :=
  limitFaults "defaults" settings.defaults.probeLimit settings.defaults.threshold ++
    settings.breakers.zipIdx.flatMap fun entry =>
      settings.faultsAfter (settings.breakers.take entry.2) entry.1

theorem faults_toPolicy {limits : Limits} {name : String} :
    limits.toPolicy.faults name =
      (if name.toList.all Text.isSpace then [.emptyName] else []) ++
        limitFaults name limits.probeLimit limits.threshold := by
  rw [Policy.faults, limitFaults, if_congr Policy.usableThreshold_iff rfl rfl,
    List.append_assoc]
  rfl

/-- The names that a walk has met are those of the overrides behind it. -/
theorem faultsOf_after (before : List Override) {rest : List Override}
    (hseen : ∀ name, name ∈ seen ↔ ∃ o ∈ before, o.name = name) :
    faultsOf seen (rest.map fun o => (o.name, settings.defaults.adjust o)) =
      (rest.zipIdx before.length).flatMap fun entry =>
        settings.faultsAfter ((before ++ rest).take entry.2) entry.1 := by
  induction rest generalizing seen before with
  | nil => rfl
  | cons o rest ih =>
    have hnext : ∀ name, name ∈ o.name :: seen ↔ ∃ o' ∈ before ++ [o], o'.name = name := by
      intro name
      rw [List.mem_cons, hseen]
      simp only [List.mem_append, List.mem_singleton]
      constructor
      · rintro (rfl | ⟨o', ho', hname⟩)
        · exact ⟨o, .inr rfl, rfl⟩
        · exact ⟨o', .inl ho', hname⟩
      · rintro ⟨o', ho' | rfl, hname⟩
        · exact .inr ⟨o', ho', hname⟩
        · exact .inl hname.symm
    have hrest := ih (before ++ [o]) hnext
    rw [List.length_append, List.length_singleton, List.append_assoc, List.singleton_append]
      at hrest
    rw [List.map_cons, faultsOf, hrest, List.zipIdx_cons, List.flatMap_cons, List.take_left,
      faults_toPolicy, faultsAfter]
    simp only [List.contains_iff_mem, hseen, Limits.adjust, List.append_assoc]

/-- The check reports all that is wrong. -/
theorem faults_eq_allFaults (settings : Settings) : settings.faults = settings.allFaults := by
  have hwalk : faultsOf [] settings.effective = settings.breakers.zipIdx.flatMap
      fun entry => settings.faultsAfter (settings.breakers.take entry.2) entry.1 :=
    faultsOf_after [] (by simp)
  rw [faults, allFaults, hwalk, faults_toPolicy, if_neg (by decide), List.nil_append]

/-! ## Names that stand several times -/

theorem count_duplicateName_toPolicy {limits : Limits} {name other : String} :
    (limits.toPolicy.faults other).count (.duplicateName name) = 0 := by
  rw [List.count_eq_zero, Policy.faults]
  split_ifs <;> simp

/-- Each entry reports its name, but for the first of a name not met before. -/
theorem count_duplicateName {name : String} :
    (faultsOf seen entries).count (.duplicateName name) =
      (entries.map Prod.fst).count name - if name ∈ seen then 0 else 1 := by
  induction entries generalizing seen with
  | nil => simp [faultsOf]
  | cons e entries ih =>
    obtain ⟨other, limits⟩ := e
    rw [faultsOf, List.count_append, List.count_append, count_duplicateName_toPolicy, ih,
      List.map_cons]
    by_cases hname : other = name
    · subst hname
      by_cases hmem : other ∈ seen <;> simp [hmem]
      omega
    · simp [hname, Ne.symm hname, apply_ite (List.count _)]

/-- The check of settings is complete and exact.  It passes usable settings and
no others, and reports all that is wrong with the rest, in order; a name that
stands `k` times is reported `k - 1` times. -/
theorem faults_exact (settings : Settings) :
    (settings.faults = [] ↔ settings.Usable) ∧ settings.faults = settings.allFaults ∧
      ∀ name, settings.faults.count (.duplicateName name) =
        (settings.breakers.map Override.name).count name - 1 := by
  refine ⟨faults_eq_nil_iff, faults_eq_allFaults settings, fun name => ?_⟩
  have hnames : settings.effective.map Prod.fst = settings.breakers.map Override.name := by
    rw [effective, List.map_map]
    rfl
  rw [faults, List.count_append, count_duplicateName_toPolicy, count_duplicateName, hnames,
    if_neg List.not_mem_nil, Nat.zero_add]

example : faults { defaults := { probeLimit := 0 },
                   breakers := [{ name := "sms", probeLimit := some 1 }, { name := "sms" },
                                { name := " ", probeLimit := some 2 }] } =
    [.probeLimit "defaults", .duplicateName "sms", .probeLimit "sms", .emptyName] := by
  decide +kernel

end Settings

end Breaker
