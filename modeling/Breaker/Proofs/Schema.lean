import Breaker.Settings.Load
import Breaker.Proofs.Parsed
import Breaker.Proofs.Slots
import Mathlib.Data.List.Forall2

/-!
# What settings read from a document

What tables say is a relation here, field by field: the value under a key, or what
is built in where there is none.  Settings are read just as it has them.

* `Toml.Table.SaysLimits`, `SaysOverride` and `SaysSettings` are what tables say
  about the records of settings.  Each record has its lawful slots, so
  `ofEntries_eq_ok` follows from what is known of slots.
* `read_eq_ok` is the same for the document of a text.
* `Section.schema` lists keys with what they take.  `exists_saysSettings` says
  that a document says some settings just when it keeps to it.
-/

namespace Breaker

open Toml

namespace Settings.Decode

/-! ## The records of settings -/

/-- The slot of observability. -/
def observabilitySlots : List (Slot String) :=
  [{ key := "log_level", read := text, get := id, put := fun level _ => level }]

/-- The slots of limits. -/
def limitsSlots : List (Slot Limits) :=
  [{ key := "probe_limit", read := small, get := Limits.probeLimit,
     put := fun n l => { l with probeLimit := n } },
    { key := "closed_window_secs", read := large, get := Limits.closedWindowSecs,
      put := fun n l => { l with closedWindowSecs := n } },
    { key := "open_duration_secs", read := large, get := Limits.openDurationSecs,
      put := fun n l => { l with openDurationSecs := n } },
    { key := "failure_rate_threshold", read := rate, get := Limits.threshold,
      put := fun x l => { l with threshold := x } },
    { key := "min_requests", read := small, get := Limits.minRequests,
      put := fun n l => { l with minRequests := n } }]

/-- A value that may be missing is there. -/
def present {β : Type} (read : Value → Fit β) (v : Value) : Fit (Option β) := do
  return some (← read v)

/-- The slots of an override. -/
def overrideSlots : List (Slot Draft) :=
  [{ key := "name", read := present text, get := Draft.name, put := fun name d => { d with name } },
    { key := "probe_limit", read := present small, get := fun d => d.rest.probeLimit,
      put := fun n d => { d with rest := { d.rest with probeLimit := n } } },
    { key := "closed_window_secs", read := present large, get := fun d => d.rest.closedWindowSecs,
      put := fun n d => { d with rest := { d.rest with closedWindowSecs := n } } },
    { key := "open_duration_secs", read := present large, get := fun d => d.rest.openDurationSecs,
      put := fun n d => { d with rest := { d.rest with openDurationSecs := n } } },
    { key := "failure_rate_threshold", read := present rate, get := fun d => d.rest.threshold,
      put := fun x d => { d with rest := { d.rest with threshold := x } } },
    { key := "min_requests", read := present small, get := fun d => d.rest.minRequests,
      put := fun n d => { d with rest := { d.rest with minRequests := n } } }]

/-- The slots of a document. -/
def documentSlots : List (Slot Settings) :=
  [{ key := "observability", read := observability, get := Settings.logLevel,
     put := fun level s => { s with logLevel := level } },
    { key := "defaults", read := limits, get := Settings.defaults,
      put := fun l s => { s with defaults := l } },
    { key := "breakers", read := breakers, get := Settings.breakers,
      put := fun os s => { s with breakers := os } }]

theorem takeObservability_eq : takeObservability = takeSlot observabilitySlots := by
  funext level key v
  simp only [takeObservability, observabilitySlots, takeSlot]
  cases text v <;> rfl

theorem takeLimit_eq : takeLimit = takeSlot limitsSlots := rfl

theorem takeOverride_eq : takeOverride = takeSlot overrideSlots := by
  funext d key v
  simp only [takeOverride, overrideSlots, takeSlot, present, bind_assoc, pure_bind]

theorem takeSection_eq : takeSection = takeSlot documentSlots := rfl

theorem lawful_observabilitySlots : Lawful observabilitySlots where
  keys := by simp [observabilitySlots]
  get_put := by simp [observabilitySlots]
  get_put_of_ne := by simp [observabilitySlots]

theorem lawful_limitsSlots : Lawful limitsSlots where
  keys := by simp [limitsSlots]
  get_put := by simp [limitsSlots]
  get_put_of_ne := by simp [limitsSlots]

theorem lawful_overrideSlots : Lawful overrideSlots where
  keys := by simp [overrideSlots]
  get_put := by simp [overrideSlots]
  get_put_of_ne := by simp [overrideSlots]

theorem lawful_documentSlots : Lawful documentSlots where
  keys := by simp [documentSlots]
  get_put := by simp [documentSlots]
  get_put_of_ne := by simp [documentSlots]

theorem ext_observabilitySlots (level level' : String)
    (h : ∀ s ∈ observabilitySlots, s.get level = s.get level') : level = level' := by
  simpa [observabilitySlots] using h

theorem ext_limitsSlots (l l' : Limits) (h : ∀ s ∈ limitsSlots, s.get l = s.get l') : l = l' := by
  cases l
  cases l'
  simpa [limitsSlots] using h

theorem ext_documentSlots (s s' : Settings)
    (h : ∀ slot ∈ documentSlots, slot.get s = slot.get s') : s = s' := by
  cases s
  cases s'
  simpa [documentSlots] using h

end Settings.Decode

/-! ## What values say -/

namespace Toml.Value

/-- The value is this text. -/
def IsText (v : Value) (s : String) : Prop := v = .text s

/-- The value is this whole number, of 32 bits without a sign. -/
def IsSmall (v : Value) (n : Nat) : Prop := v = .integer n ∧ n < 0x100000000

/-- The value is this whole number, which has no minus. -/
def IsLarge (v : Value) (n : Nat) : Prop := v = .integer n

/-- The value is this number, or a whole number that is converted to it. -/
def IsRate (v : Value) (x : Binary64) : Prop := v = .float x ∨ ∃ n, v = .integer n ∧ x = .ofInt n

end Toml.Value

/-- The value has the type that is expected. -/
def Expected.Takes : Expected → Value → Prop
  | .small, v => ∃ n, v.IsSmall n
  | .large, v => ∃ n, v.IsLarge n
  | .rate, v => ∃ x, v.IsRate x
  | .text, v => ∃ s, v.IsText s
  | .sequence, v => ∃ items, v = .array items
  | .record _, v => ∃ t, v = .table t

/-- The keys of a record, and what each of them takes. -/
def Section.schema : Section → List (String × Expected)
  | .observability => [("log_level", .text)]
  | .limits =>
    [("probe_limit", .small), ("closed_window_secs", .large), ("open_duration_secs", .large),
      ("failure_rate_threshold", .rate), ("min_requests", .small)]
  | .override =>
    [("name", .text), ("probe_limit", .small), ("closed_window_secs", .large),
      ("open_duration_secs", .large), ("failure_rate_threshold", .rate), ("min_requests", .small)]

namespace Settings.Decode

variable {v : Value}

theorem text_eq_ok {s : String} : text v = .ok s ↔ v.IsText s := by
  cases v <;> simp [text, Value.IsText]

theorem whole_eq_ok {limit n : Nat} {expected : Expected} :
    whole limit expected v = .ok n ↔ v = .integer n ∧ n < limit := by
  cases v with
  | integer m =>
    simp only [whole, Value.integer.injEq]
    split
    · next h =>
      rw [Except.ok.injEq]
      omega
    · next h =>
      simp only [reduceCtorEq, false_iff]
      omega
  | _ => simp [whole]

theorem small_eq_ok {n : Nat} : small v = .ok n ↔ v.IsSmall n := whole_eq_ok

/-- A whole number of 64 bits with a sign that has no minus fits without one. -/
theorem large_eq_ok (hproper : v.Proper) {n : Nat} : large v = .ok n ↔ v.IsLarge n := by
  rw [large, whole_eq_ok, Value.IsLarge, and_iff_left_iff_imp]
  rintro rfl
  cases hproper with
  | integer hlow hhigh => omega

theorem rate_eq_ok {x : Binary64} : rate v = .ok x ↔ v.IsRate x := by
  cases v <;> simp [rate, Value.IsRate, eq_comm]

end Settings.Decode

/-! ## What tables say -/

/-- Every key of the record that occurs holds a value of its type. -/
def Section.Fits (r : Section) (t : Table) : Prop :=
  ∀ entry ∈ r.schema, ∀ v, t.lookup entry.1 = some v → entry.2.Takes v

namespace Toml.Table

/-- The table says this log level. -/
def SaysLevel (t : Table) (level : String) : Prop := t.Entry "log_level" Value.IsText "info" level

/-- The table says these limits; what it leaves out is built in. -/
structure SaysLimits (t : Table) (l : Limits) : Prop where
  probeLimit : t.Entry "probe_limit" Value.IsSmall 3 l.probeLimit
  closedWindowSecs : t.Entry "closed_window_secs" Value.IsLarge 60 l.closedWindowSecs
  openDurationSecs : t.Entry "open_duration_secs" Value.IsLarge 60 l.openDurationSecs
  threshold : t.Entry "failure_rate_threshold" Value.IsRate (.ofRatio 1 2) l.threshold
  minRequests : t.Entry "min_requests" Value.IsSmall 10 l.minRequests

/-- A limit that an override sets. -/
def Sets {α : Type} (Is : Value → α → Prop) (v : Value) (o : Option α) : Prop :=
  ∃ a, o = some a ∧ Is v a

/-- The table says this override; what it leaves out is not set. -/
structure SaysOverride (t : Table) (o : Override) : Prop where
  name : t.lookup "name" = some (.text o.name)
  probeLimit : t.Entry "probe_limit" (Sets Value.IsSmall) none o.probeLimit
  closedWindowSecs : t.Entry "closed_window_secs" (Sets Value.IsLarge) none o.closedWindowSecs
  openDurationSecs : t.Entry "open_duration_secs" (Sets Value.IsLarge) none o.openDurationSecs
  threshold : t.Entry "failure_rate_threshold" (Sets Value.IsRate) none o.threshold
  minRequests : t.Entry "min_requests" (Sets Value.IsSmall) none o.minRequests

/-- The table has an own table in this value, which says that. -/
def Within {α : Type} (Says : Table → α → Prop) (v : Value) (a : α) : Prop :=
  ∃ t, v = .table t ∧ Says t a

/-- The value is an array of tables, which say these overrides in their order. -/
def SaysBreakers (v : Value) (os : List Override) : Prop :=
  ∃ tables, v = .array (tables.map .table) ∧ List.Forall₂ SaysOverride tables os

/-- The document says these settings; what it leaves out is built in. -/
structure SaysSettings (doc : Table) (s : Settings) : Prop where
  logLevel : doc.Entry "observability" (Within SaysLevel) "info" s.logLevel
  defaults : doc.Entry "defaults" (Within SaysLimits)
    { probeLimit := 3, closedWindowSecs := 60, openDurationSecs := 60, threshold := .ofRatio 1 2,
      minRequests := 10 } s.defaults
  breakers : doc.Entry "breakers" SaysBreakers [] s.breakers

/-- The document has tables where settings take tables, and an array of them for
the breakers. -/
structure Shaped (doc : Table) : Prop where
  observability : ∀ v, doc.lookup "observability" = some v → ∃ t, v = .table t
  defaults : ∀ v, doc.lookup "defaults" = some v → ∃ t, v = .table t
  breakers : ∀ v, doc.lookup "breakers" = some v →
    ∃ tables : List Table, v = .array (tables.map .table)

/-- Every key of the settings that occurs holds a value of its type, and every
breaker has a name. -/
structure FitsSettings (doc : Table) : Prop where
  observability : ∀ t, doc.lookup "observability" = some (.table t) → Section.observability.Fits t
  defaults : ∀ t, doc.lookup "defaults" = some (.table t) → Section.limits.Fits t
  breakers : ∀ tables : List Table, doc.lookup "breakers" = some (.array (tables.map .table)) →
    ∀ t ∈ tables, Section.override.Fits t ∧ ∃ v, t.lookup "name" = some v

end Toml.Table

namespace Settings.Decode

open Table

variable {t : Table}

theorem present_eq_ok {β : Type} {read : Value → Fit β} {Is : Value → β → Prop} {v : Value}
    (h : ∀ b, read v = .ok b ↔ Is v b) {o : Option β} :
    present read v = .ok o ↔ Sets Is v o := by
  rw [present, bind_eq_ok, Sets]
  refine exists_congr fun b => ?_
  rw [h, and_comm, and_congr_left_iff]
  intro _
  exact ⟨fun heq => (Except.ok.inj heq).symm, fun heq => congrArg Except.ok heq.symm⟩

theorem observability_table (hproper : (Value.table t).Proper) {level : String} :
    observability (.table t) = .ok level ↔ t.SaysLevel level := by
  rw [observability, takeObservability_eq,
    fields_eq_ok_iff lawful_observabilitySlots ext_observabilitySlots (nodup_of_proper hproper)]
  simp only [observabilitySlots, List.forall_mem_singleton, text_eq_ok, id, SaysLevel]

theorem limits_table (hproper : (Value.table t).Proper) {l : Limits} :
    limits (.table t) = .ok l ↔ t.SaysLimits l := by
  have hlarge : ∀ key default n, t.Entry key (fun v b => large v = .ok b) default n ↔
      t.Entry key Value.IsLarge default n :=
    fun key default n => entry_congr fun v hv n => large_eq_ok (proper_of_lookup hproper hv)
  rw [limits, takeLimit_eq,
    fields_eq_ok_iff lawful_limitsSlots ext_limitsSlots (nodup_of_proper hproper)]
  simp only [limitsSlots, List.forall_mem_cons, hlarge, small_eq_ok, rate_eq_ok]
  constructor
  · rintro ⟨hprobes, hclosed, hopen, hthreshold, hrequests, -⟩
    exact ⟨hprobes, hclosed, hopen, hthreshold, hrequests⟩
  · rintro ⟨hprobes, hclosed, hopen, hthreshold, hrequests⟩
    exact ⟨hprobes, hclosed, hopen, hthreshold, hrequests, nofun⟩

/-- A complete draft gives the override that its slots hold. -/
theorem toOverride_eq_ok {d : Draft} {o : Override} :
    d.toOverride = .ok o ↔
      ∀ s ∈ overrideSlots, s.get d = s.get { name := some o.name, rest := o } := by
  obtain ⟨name, rest⟩ := d
  cases name with
  | none => simp [Draft.toOverride, overrideSlots]
  | some name =>
    obtain ⟨_, probeLimit, closedWindowSecs, openDurationSecs, threshold, minRequests⟩ := rest
    obtain ⟨_, probeLimit', closedWindowSecs', openDurationSecs', threshold', minRequests'⟩ := o
    simp [Draft.toOverride, overrideSlots]

theorem entry_sets_some {Is : Value → String → Prop} {key s : String} :
    t.Entry key (Sets Is) none (some s) ↔ ∃ v, t.lookup key = some v ∧ Is v s := by
  cases hlookup : t.lookup key with
  | some v => simp [entry_of_some hlookup, Sets]
  | none => simp [entry_of_none hlookup]

/-- A table is read as the override that the slots of a draft make of it. -/
theorem override_eq_ok (hkeys : (t.map Prod.fst).Nodup) {o : Override} :
    override (.table t) = .ok o ↔
      ∀ s ∈ overrideSlots, t.Entry s.key (fun v b => s.read v = .ok b) (s.get {})
        (s.get { name := some o.name, rest := o }) := by
  rw [override, takeOverride_eq, bind_eq_ok]
  constructor
  · rintro ⟨d, hfields, hd⟩ s hs
    rw [← toOverride_eq_ok.1 hd s hs]
    exact entry_of_fields lawful_overrideSlots hkeys hfields hs
  · intro h
    obtain ⟨d, hfields, hentries⟩ :=
      fields_of_entries lawful_overrideSlots hkeys fun s hs => ⟨_, h s hs⟩
    refine ⟨d, hfields, toOverride_eq_ok.2 fun s hs => ?_⟩
    exact entry_read_unique (hentries s hs) (h s hs)

theorem override_table (hproper : (Value.table t).Proper) {o : Override} :
    override (.table t) = .ok o ↔ t.SaysOverride o := by
  have hname : t.Entry "name" (fun v b => present text v = .ok b) none (some o.name) ↔
      t.lookup "name" = some (.text o.name) := by
    rw [entry_congr fun v hv n => present_eq_ok fun _ => text_eq_ok, entry_sets_some]
    simp [Value.IsText]
  have hsmall : ∀ key n, t.Entry key (fun v b => present small v = .ok b) none n ↔
      t.Entry key (Sets Value.IsSmall) none n :=
    fun key n => entry_congr fun v hv n => present_eq_ok fun _ => small_eq_ok
  have hlarge : ∀ key n, t.Entry key (fun v b => present large v = .ok b) none n ↔
      t.Entry key (Sets Value.IsLarge) none n :=
    fun key n => entry_congr fun v hv n =>
      present_eq_ok fun _ => large_eq_ok (proper_of_lookup hproper hv)
  have hrate : ∀ key x, t.Entry key (fun v b => present rate v = .ok b) none x ↔
      t.Entry key (Sets Value.IsRate) none x :=
    fun key x => entry_congr fun v hv n => present_eq_ok fun _ => rate_eq_ok
  rw [override_eq_ok (nodup_of_proper hproper)]
  simp only [overrideSlots, List.forall_mem_cons, hname, hsmall, hlarge, hrate]
  constructor
  · rintro ⟨hname, hprobes, hclosed, hopen, hthreshold, hrequests, -⟩
    exact ⟨hname, hprobes, hclosed, hopen, hthreshold, hrequests⟩
  · rintro ⟨hname, hprobes, hclosed, hopen, hthreshold, hrequests⟩
    exact ⟨hname, hprobes, hclosed, hopen, hthreshold, hrequests, nofun⟩

/-- The overrides of a list of tables, in its order. -/
theorem overrides_tables {tables : List Table}
    (hproper : ∀ t ∈ tables, (Value.table t).Proper) {os : List Override} :
    overrides (tables.map .table) = .ok os ↔ List.Forall₂ SaysOverride tables os := by
  induction tables generalizing os with
  | nil =>
    rw [List.map_nil, overrides, List.forall₂_nil_left_iff, Except.ok.injEq, eq_comm]
  | cons t tables ih =>
    obtain ⟨hfirst, hrest⟩ := List.forall_mem_cons.1 hproper
    simp only [List.map_cons, overrides, bind_eq_ok, override_table hfirst, ih hrest,
      List.forall₂_cons_left_iff]
    constructor
    · rintro ⟨o, ho, os', hos', heq⟩
      exact ⟨o, os', ho, hos', (Except.ok.inj heq).symm⟩
    · rintro ⟨o, os', ho, hos', rfl⟩
      exact ⟨o, ho, os', hos', rfl⟩

/-! ## Documents -/

theorem within_table {β : Type} {Says : Table → β → Prop} {b : β} :
    Within Says (.table t) b ↔ Says t b := by
  constructor
  · rintro ⟨_, ⟨⟩, h⟩
    exact h
  · exact fun h => ⟨t, rfl, h⟩

theorem map_table_inj {tables tables' : List Table} :
    Value.array (tables.map .table) = .array (tables'.map .table) ↔ tables = tables' := by
  rw [Value.array.injEq]
  exact List.map_inj_right fun t t' => Value.table.inj

/-- A document of the right shape is read as the settings that it says. -/
theorem ofEntries_eq_ok {doc : Table} (hproper : (Value.table doc).Proper) (hshaped : doc.Shaped)
    {s : Settings} : Settings.ofEntries doc = .ok s ↔ doc.SaysSettings s := by
  have hobservability : ∀ v, doc.lookup "observability" = some v → ∀ level,
      observability v = .ok level ↔ Within SaysLevel v level := by
    intro v hv level
    obtain ⟨t, rfl⟩ := hshaped.observability v hv
    rw [observability_table (proper_of_lookup hproper hv), within_table]
  have hdefaults : ∀ v, doc.lookup "defaults" = some v → ∀ l,
      limits v = .ok l ↔ Within SaysLimits v l := by
    intro v hv l
    obtain ⟨t, rfl⟩ := hshaped.defaults v hv
    rw [limits_table (proper_of_lookup hproper hv), within_table]
  have hbreakers : ∀ v, doc.lookup "breakers" = some v → ∀ os,
      breakers v = .ok os ↔ SaysBreakers v os := by
    intro v hv os
    obtain ⟨tables, rfl⟩ := hshaped.breakers v hv
    have htables : ∀ t ∈ tables, (Value.table t).Proper := by
      cases proper_of_lookup hproper hv with
      | array hitems => exact fun t ht => hitems _ (List.mem_map_of_mem ht)
    simp only [breakers, overrides_tables htables, SaysBreakers, map_table_inj, exists_eq_left']
  rw [Settings.ofEntries, takeSection_eq,
    fields_eq_ok_iff lawful_documentSlots ext_documentSlots (nodup_of_proper hproper)]
  simp only [documentSlots, List.forall_mem_cons, entry_congr hobservability,
    entry_congr hdefaults, entry_congr hbreakers]
  constructor
  · rintro ⟨hlevel, hdefaults, hbreakers, -⟩
    exact ⟨hlevel, hdefaults, hbreakers⟩
  · rintro ⟨hlevel, hdefaults, hbreakers⟩
    exact ⟨hlevel, hdefaults, hbreakers, nofun⟩

/-- A text is read as the settings that its document says. -/
theorem read_eq_ok {text : String} {doc : Table} (hparse : parse? text = some doc)
    (hshaped : doc.Shaped) {s : Settings} : Settings.read text = .ok s ↔ doc.SaysSettings s := by
  have hread : Settings.read text = (Settings.ofEntries doc).mapError .misfit := by
    rw [Settings.read, hparse]
  have hmap : ∀ x : Fit Settings, x.mapError LoadError.misfit = .ok s ↔ x = .ok s := by
    intro x
    cases x <;> simp [Except.mapError]
  rw [hread, hmap, ofEntries_eq_ok (parse?_proper hparse) hshaped]

/-! ## What fits -/

theorem exists_entry_sets {β : Type} {Is : Value → β → Prop} {key : String} :
    (∃ o, t.Entry key (Sets Is) none o) ↔ ∀ v, t.lookup key = some v → ∃ b, Is v b := by
  rw [exists_entry_iff]
  refine forall₂_congr fun v hv => ?_
  exact ⟨fun ⟨_, b, _, hb⟩ => ⟨b, hb⟩, fun ⟨b, hb⟩ => ⟨some b, b, rfl, hb⟩⟩

theorem exists_saysLevel : (∃ level, t.SaysLevel level) ↔ Section.observability.Fits t := by
  simp only [Section.Fits, Section.schema, List.forall_mem_singleton, Expected.Takes]
  exact exists_entry_iff

theorem exists_saysLimits : (∃ l, t.SaysLimits l) ↔ Section.limits.Fits t := by
  simp only [Section.Fits, Section.schema, List.forall_mem_cons, Expected.Takes]
  constructor
  · rintro ⟨l, h⟩
    exact ⟨exists_entry_iff.1 ⟨_, h.probeLimit⟩, exists_entry_iff.1 ⟨_, h.closedWindowSecs⟩,
      exists_entry_iff.1 ⟨_, h.openDurationSecs⟩, exists_entry_iff.1 ⟨_, h.threshold⟩,
      exists_entry_iff.1 ⟨_, h.minRequests⟩, nofun⟩
  · rintro ⟨hprobes, hclosed, hopen, hthreshold, hrequests, -⟩
    obtain ⟨probeLimit, hprobes⟩ := exists_entry_iff.2 hprobes
    obtain ⟨closedWindowSecs, hclosed⟩ := exists_entry_iff.2 hclosed
    obtain ⟨openDurationSecs, hopen⟩ := exists_entry_iff.2 hopen
    obtain ⟨threshold, hthreshold⟩ := exists_entry_iff.2 hthreshold
    obtain ⟨minRequests, hrequests⟩ := exists_entry_iff.2 hrequests
    exact ⟨⟨probeLimit, closedWindowSecs, openDurationSecs, threshold, minRequests⟩,
      hprobes, hclosed, hopen, hthreshold, hrequests⟩

theorem exists_saysOverride :
    (∃ o, t.SaysOverride o) ↔ Section.override.Fits t ∧ ∃ v, t.lookup "name" = some v := by
  simp only [Section.Fits, Section.schema, List.forall_mem_cons, Expected.Takes]
  constructor
  · rintro ⟨o, h⟩
    have hname : ∀ v, t.lookup "name" = some v → ∃ s, v.IsText s := by
      intro v hv
      exact ⟨o.name, Option.some.inj (hv.symm.trans h.name)⟩
    exact ⟨⟨hname, exists_entry_sets.1 ⟨_, h.probeLimit⟩,
      exists_entry_sets.1 ⟨_, h.closedWindowSecs⟩, exists_entry_sets.1 ⟨_, h.openDurationSecs⟩,
      exists_entry_sets.1 ⟨_, h.threshold⟩, exists_entry_sets.1 ⟨_, h.minRequests⟩, nofun⟩,
      _, h.name⟩
  · rintro ⟨⟨hname, hprobes, hclosed, hopen, hthreshold, hrequests, -⟩, v, hv⟩
    obtain ⟨name, rfl⟩ := hname v hv
    obtain ⟨probeLimit, hprobes⟩ := exists_entry_sets.2 hprobes
    obtain ⟨closedWindowSecs, hclosed⟩ := exists_entry_sets.2 hclosed
    obtain ⟨openDurationSecs, hopen⟩ := exists_entry_sets.2 hopen
    obtain ⟨threshold, hthreshold⟩ := exists_entry_sets.2 hthreshold
    obtain ⟨minRequests, hrequests⟩ := exists_entry_sets.2 hrequests
    exact ⟨⟨name, probeLimit, closedWindowSecs, openDurationSecs, threshold, minRequests⟩,
      hv, hprobes, hclosed, hopen, hthreshold, hrequests⟩

theorem exists_forall₂_saysOverride {tables : List Table} :
    (∃ os, List.Forall₂ SaysOverride tables os) ↔ ∀ t ∈ tables, ∃ o, t.SaysOverride o := by
  induction tables with
  | nil => exact ⟨nofun, fun _ => ⟨[], .nil⟩⟩
  | cons t tables ih =>
    rw [List.forall_mem_cons, ← ih]
    constructor
    · rintro ⟨_, _ | ⟨ho, hos⟩⟩
      exact ⟨⟨_, ho⟩, ⟨_, hos⟩⟩
    · rintro ⟨⟨o, ho⟩, ⟨os, hos⟩⟩
      exact ⟨o :: os, .cons ho hos⟩

/-- A document of the right shape says some settings just when it fits. -/
theorem exists_saysSettings {doc : Table} (hshaped : doc.Shaped) :
    (∃ s, doc.SaysSettings s) ↔ doc.FitsSettings := by
  constructor
  · rintro ⟨s, h⟩
    refine ⟨fun t ht => ?_, fun t ht => ?_, fun tables htables => ?_⟩
    · exact exists_saysLevel.1 ⟨_, within_table.1 ((entry_of_some ht).1 h.logLevel)⟩
    · exact exists_saysLimits.1 ⟨_, within_table.1 ((entry_of_some ht).1 h.defaults)⟩
    · obtain ⟨tables', heq, hall⟩ := (entry_of_some htables).1 h.breakers
      rw [map_table_inj] at heq
      subst heq
      intro t ht
      exact exists_saysOverride.1 (exists_forall₂_saysOverride.1 ⟨_, hall⟩ t ht)
  · intro h
    have hlevel : ∀ v, doc.lookup "observability" = some v →
        ∃ level, Within SaysLevel v level := by
      intro v hv
      obtain ⟨t, rfl⟩ := hshaped.observability v hv
      obtain ⟨level, hlevel⟩ := exists_saysLevel.2 (h.observability t hv)
      exact ⟨level, within_table.2 hlevel⟩
    have hdefaults : ∀ v, doc.lookup "defaults" = some v → ∃ l, Within SaysLimits v l := by
      intro v hv
      obtain ⟨t, rfl⟩ := hshaped.defaults v hv
      obtain ⟨l, hl⟩ := exists_saysLimits.2 (h.defaults t hv)
      exact ⟨l, within_table.2 hl⟩
    have hbreakers : ∀ v, doc.lookup "breakers" = some v → ∃ os, SaysBreakers v os := by
      intro v hv
      obtain ⟨tables, rfl⟩ := hshaped.breakers v hv
      obtain ⟨os, hos⟩ := exists_forall₂_saysOverride.2
        fun t ht => exists_saysOverride.2 (h.breakers tables hv t ht)
      exact ⟨os, tables, rfl, hos⟩
    obtain ⟨logLevel, hlevel⟩ := exists_entry_iff.2 hlevel
    obtain ⟨defaults, hdefaults⟩ := exists_entry_iff.2 hdefaults
    obtain ⟨breakers, hbreakers⟩ := exists_entry_iff.2 hbreakers
    exact ⟨⟨logLevel, defaults, breakers⟩, hlevel, hdefaults, hbreakers⟩

end Settings.Decode

end Breaker
