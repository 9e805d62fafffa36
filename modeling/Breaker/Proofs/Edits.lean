import Breaker.Proofs.Schema
import Mathlib.Logic.Relation

/-!
# Documents that are read alike

Settings are read from a document as it stands: keys that they do not know and
the order of the entries of a table make no difference.

* `Toml.Table.Edited` puts another table in the place of one of the tables of a
  document; what tables may change places is up to a relation `R`.
* `ofEntries_padded` is about entries whose keys are not known: they make no
  difference to the outcome, the misfit of a document that does not fit included.
* `ofEntries_rewritten` is about tables with their entries in another order as
  well: there the settings are the same, if there are any.
* `ofEntries_exact` says all that is read from a document.
-/

namespace Breaker

open Toml

namespace Toml.Table

/-- The keys of a document that settings know. -/
def documentKeys : List String := ["observability", "defaults", "breakers"]

/-- The keys of a record. -/
def recordKeys (r : Section) : List String := r.schema.map Prod.fst

/-- One table of the first document has another in its place in the second; `R`
relates the two, given the keys that are known there. -/
inductive Edited (R : List String → Table → Table → Prop) : Table → Table → Prop
  | document {doc doc' : Table} (h : R documentKeys doc doc') : Edited R doc doc'
  | observability (before after : Table) {t t' : Table}
      (h : R (recordKeys .observability) t t') :
      Edited R (before ++ ("observability", .table t) :: after)
        (before ++ ("observability", .table t') :: after)
  | defaults (before after : Table) {t t' : Table} (h : R (recordKeys .limits) t t') :
      Edited R (before ++ ("defaults", .table t) :: after)
        (before ++ ("defaults", .table t') :: after)
  | breaker (before after : Table) (first rest : List Value) {t t' : Table}
      (h : R (recordKeys .override) t t') :
      Edited R (before ++ ("breakers", .array (first ++ .table t :: rest)) :: after)
        (before ++ ("breakers", .array (first ++ .table t' :: rest)) :: after)

/-- The tables have the same entries in another order, or differ in entries whose
keys are not known. -/
def Rewritten (known : List String) (t t' : Table) : Prop :=
  t.Padded known t' ∨ ((t.map Prod.fst).Nodup ∧ t.Perm t')

end Toml.Table

namespace Settings.Decode

open Table

variable {t t' doc doc' : Table} {s : Settings}

/-! ## One table in the place of another -/

theorem takeSection_observability {v : Value} : takeSection s "observability" v = do
    return { s with logLevel := ← observability v } := by
  simp [takeSection]

theorem takeSection_defaults {v : Value} : takeSection s "defaults" v = do
    return { s with defaults := ← limits v } := by
  simp [takeSection]

theorem takeSection_breakers {v : Value} : takeSection s "breakers" v = do
    return { s with breakers := ← breakers v } := by
  simp [takeSection]

/-- What is read depends on a value only as far as its reader tells. -/
theorem fields_replace {α : Type} {take : α → String → Value → Fit α} {key : String} {v v' : Value}
    (h : ∀ a, take a key v' = take a key v) (before after : Table) (a : α) :
    fields take a (before ++ (key, v') :: after) = fields take a (before ++ (key, v) :: after) := by
  induction before generalizing a with
  | nil => simp only [List.nil_append, fields, h]
  | cons e before ih => simp only [List.cons_append, fields, ih]

theorem fields_replace_ok {α : Type} {take : α → String → Value → Fit α} {key : String}
    {v v' : Value} (h : ∀ a b, take a key v' = .ok b ↔ take a key v = .ok b)
    (before after : Table) (a b : α) :
    fields take a (before ++ (key, v') :: after) = .ok b ↔
      fields take a (before ++ (key, v) :: after) = .ok b := by
  induction before generalizing a with
  | nil => simp only [List.nil_append, fields, bind_eq_ok, h]
  | cons e before ih => simp only [List.cons_append, fields, bind_eq_ok, ih]

theorem overrides_replace {v v' : Value} (h : override v' = override v) (first rest : List Value) :
    overrides (first ++ v' :: rest) = overrides (first ++ v :: rest) := by
  induction first with
  | nil => simp only [List.nil_append, overrides, h]
  | cons w first ih => simp only [List.cons_append, overrides, ih]

theorem overrides_replace_ok {v v' : Value} (h : ∀ o, override v' = .ok o ↔ override v = .ok o)
    (first rest : List Value) (os : List Override) :
    overrides (first ++ v' :: rest) = .ok os ↔ overrides (first ++ v :: rest) = .ok os := by
  induction first generalizing os with
  | nil => simp only [List.nil_append, overrides, bind_eq_ok, h]
  | cons w first ih => simp only [List.cons_append, overrides, bind_eq_ok, ih]

/-! ## Keys that are not known -/

theorem observability_padded (h : t.Padded (recordKeys .observability) t') :
    observability (.table t') = observability (.table t) := by
  rw [observability, observability, takeObservability_eq]
  exact fields_padded observabilitySlots h _

theorem limits_padded (h : t.Padded (recordKeys .limits) t') :
    limits (.table t') = limits (.table t) := by
  rw [limits, limits, takeLimit_eq]
  exact fields_padded limitsSlots h _

theorem override_padded (h : t.Padded (recordKeys .override) t') :
    override (.table t') = override (.table t) := by
  have hfields : fields (takeSlot overrideSlots) {} t' = fields (takeSlot overrideSlots) {} t :=
    fields_padded overrideSlots h _
  rw [override, override, takeOverride_eq, hfields]

/-- Further keys that settings do not know leave the outcome as it is. -/
theorem ofEntries_padded (h : doc.Edited Padded doc') :
    Settings.ofEntries doc' = Settings.ofEntries doc := by
  cases h with
  | document h =>
    rw [Settings.ofEntries, Settings.ofEntries, takeSection_eq]
    exact fields_padded documentSlots h _
  | observability before after h =>
    refine fields_replace (fun s => ?_) before after _
    rw [takeSection_observability, takeSection_observability, observability_padded h]
  | defaults before after h =>
    refine fields_replace (fun s => ?_) before after _
    rw [takeSection_defaults, takeSection_defaults, limits_padded h]
  | breaker before after first rest h =>
    refine fields_replace (fun s => ?_) before after _
    rw [takeSection_breakers, takeSection_breakers, breakers, breakers,
      overrides_replace (override_padded h)]

/-! ## Entries in another order -/

theorem observability_rewritten (h : Rewritten (recordKeys .observability) t t') {level : String} :
    observability (.table t') = .ok level ↔ observability (.table t) = .ok level := by
  rcases h with h | ⟨hkeys, hperm⟩
  · rw [observability_padded h]
  · rw [observability, observability, takeObservability_eq]
    exact fields_perm lawful_observabilitySlots ext_observabilitySlots hkeys hperm

theorem limits_rewritten (h : Rewritten (recordKeys .limits) t t') {l : Limits} :
    limits (.table t') = .ok l ↔ limits (.table t) = .ok l := by
  rcases h with h | ⟨hkeys, hperm⟩
  · rw [limits_padded h]
  · rw [limits, limits, takeLimit_eq]
    exact fields_perm lawful_limitsSlots ext_limitsSlots hkeys hperm

theorem override_rewritten (h : Rewritten (recordKeys .override) t t') {o : Override} :
    override (.table t') = .ok o ↔ override (.table t) = .ok o := by
  rcases h with h | ⟨hkeys, hperm⟩
  · rw [override_padded h]
  · have hkeys' : (t'.map Prod.fst).Nodup := (hperm.map Prod.fst).nodup_iff.1 hkeys
    rw [override_eq_ok hkeys, override_eq_ok hkeys']
    exact forall₂_congr fun s _ => entry_perm hkeys hperm

/-- Neither further keys nor another order changes the settings that are read. -/
theorem ofEntries_rewritten (h : doc.Edited Rewritten doc') :
    Settings.ofEntries doc' = .ok s ↔ Settings.ofEntries doc = .ok s := by
  cases h with
  | document h =>
    -- Here a misfit may come first that came later before, so only success is kept.
    rcases h with h | ⟨hkeys, hperm⟩
    · rw [ofEntries_padded (.document h)]
    · rw [Settings.ofEntries, Settings.ofEntries, takeSection_eq]
      exact fields_perm lawful_documentSlots ext_documentSlots hkeys hperm
  | observability before after h =>
    refine fields_replace_ok (fun s s' => ?_) before after _ s
    simp only [takeSection_observability, bind_eq_ok, observability_rewritten h]
  | defaults before after h =>
    refine fields_replace_ok (fun s s' => ?_) before after _ s
    simp only [takeSection_defaults, bind_eq_ok, limits_rewritten h]
  | breaker before after first rest h =>
    refine fields_replace_ok (fun s s' => ?_) before after _ s
    simp only [takeSection_breakers, breakers, bind_eq_ok,
      overrides_replace_ok fun o => override_rewritten h]

end Settings.Decode

namespace Settings

open Table Decode

/-- Settings are read from a document just as it says them.  A document of the
right shape gives settings just when it fits, and then the settings that it says:
its own values, and elsewhere what is built in.  Further keys do not change the
outcome at all, and another order of the entries does not change the settings. -/
theorem ofEntries_exact {doc : Table} (hproper : (Value.table doc).Proper)
    (hshaped : doc.Shaped) :
    ((∃ s, ofEntries doc = .ok s) ↔ doc.FitsSettings) ∧
    (∀ s, ofEntries doc = .ok s ↔ doc.SaysSettings s) ∧
    (∀ doc', Relation.ReflTransGen (Edited Padded) doc doc' →
      ofEntries doc' = ofEntries doc) ∧
    ∀ doc', Relation.ReflTransGen (Edited Rewritten) doc doc' →
      ∀ s, ofEntries doc' = .ok s ↔ ofEntries doc = .ok s := by
  have htold : ∀ s, ofEntries doc = .ok s ↔ doc.SaysSettings s :=
    fun s => ofEntries_eq_ok hproper hshaped
  refine ⟨?_, htold, fun doc' hedits => ?_, fun doc' hedits s => ?_⟩
  · rw [exists_congr htold]
    exact exists_saysSettings hshaped
  · induction hedits with
    | refl => rfl
    | tail _ hedit ih => rw [ofEntries_padded hedit, ih]
  · induction hedits with
    | refl => exact Iff.rfl
    | tail _ hedit ih => rw [ofEntries_rewritten hedit, ih]

/-- A document with one override, and defaults after it. -/
def shortDocument : Table :=
  [("breakers", .array [.table [("name", .text "sms"), ("probe_limit", .integer 2)]]),
    ("defaults", .table [("failure_rate_threshold", .integer 1)])]

/-- The same settings are read where the defaults come first, the override names its
breaker last, and there are keys that nobody knows. -/
theorem ofEntries_exact_rewritten :
    (Value.table shortDocument).Proper ∧ shortDocument.Shaped ∧
    ofEntries
      [("title", .dateTime), ("defaults", .table [("failure_rate_threshold", .integer 1)]),
        ("breakers", .array [.table
          [("probe_limit", .integer 2), ("owner", .array []), ("name", .text "sms")]])] =
      .ok { defaults := { threshold := .ofInt 1 },
            breakers := [{ name := "sms", probeLimit := some 2 }] } := by
  have hproper : (Value.table shortDocument).Proper := by
    refine .table (by decide) ?_
    simp only [shortDocument, List.forall_mem_cons]
    refine ⟨.array ?_, .table (by decide) ?_, by simp⟩
    · simp only [List.forall_mem_singleton]
      refine .table (by decide) ?_
      simp only [List.forall_mem_cons]
      exact ⟨.text _, .integer (by decide) (by decide), by simp⟩
    · simp only [List.forall_mem_singleton]
      exact .integer (by decide) (by decide)
  have hshaped : shortDocument.Shaped := by
    refine ⟨?_, ?_, ?_⟩
    · simp [shortDocument, lookup_cons_of_ne]
    · simp [shortDocument, List.lookup_cons]
    · intro v hv
      exact ⟨[[("name", .text "sms"), ("probe_limit", .integer 2)]],
        (Option.some.inj hv).symm⟩
  have hlimits : SaysLimits [("failure_rate_threshold", .integer 1)] { threshold := .ofInt 1 } :=
    ⟨rfl, rfl, rfl, (entry_of_some rfl).2 (.inr ⟨1, rfl, by simp only⟩), rfl⟩
  have hoverride : SaysOverride [("name", .text "sms"), ("probe_limit", .integer 2)]
      { name := "sms", probeLimit := some 2 } :=
    ⟨rfl, ⟨2, rfl, rfl, by decide⟩, rfl, rfl, rfl, rfl⟩
  have htold : shortDocument.SaysSettings
      { defaults := { threshold := .ofInt 1 },
        breakers := [{ name := "sms", probeLimit := some 2 }] } := by
    refine ⟨(entry_of_none rfl).2 rfl, (entry_of_some rfl).2 (within_table.2 hlimits),
      (entry_of_some rfl).2 ?_⟩
    exact ⟨[_], rfl, .cons hoverride .nil⟩
  have hedits : Relation.ReflTransGen (Edited Rewritten) shortDocument
      [("title", .dateTime), ("defaults", .table [("failure_rate_threshold", .integer 1)]),
        ("breakers", .array [.table
          [("probe_limit", .integer 2), ("owner", .array []), ("name", .text "sms")]])] := by
    have howner : Rewritten (recordKeys .override)
        [("probe_limit", .integer 2), ("name", .text "sms")]
        [("probe_limit", .integer 2), ("owner", .array []), ("name", .text "sms")] :=
      .inl rfl
    refine .head (.breaker [] _ [] [] (.inr ⟨by decide, .swap _ _ _⟩)) ?_
    refine .head (.breaker [] _ [] [] howner) ?_
    refine .head (.document (.inr ⟨by decide, .swap _ _ _⟩)) ?_
    exact .single (.document (.inl rfl))
  obtain ⟨-, hread, -, hrewritten⟩ := ofEntries_exact hproper hshaped
  exact ⟨hproper, hshaped, (hrewritten _ hedits _).2 ((hread _).2 htold)⟩

end Settings

end Breaker
