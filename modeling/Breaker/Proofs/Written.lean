import Breaker.Proofs.Faults
import Breaker.Proofs.Lines
import Breaker.Proofs.Schema
import Breaker.Settings.Load

/-!
# Overrides that are written out

The overrides of a list, each written as a table of its own, are read back: the
text is a document, the document fits, and the settings have no faults.

* `Override.Writable` are the overrides that are meant.  `Override.WrittenAs` and
  `Settings.Writes` are the ways to write them, with any spelling of a name, the
  lines of a table in any order and empty lines between tables; `Settings.write`
  picks one of them.
* `exists_tables` is the way from the text to a table for each override, and
  `saysSettings_arrayDocument` the way from there to settings.
* `parse_written` puts them together with the check for faults.
-/

namespace Breaker

open Toml

/-! ## Writing overrides -/

namespace Override

variable {o : Override} {t : Table}

/-- An override with a name that shows, that sets no threshold and whose limits a
document can hold. -/
structure Writable (o : Override) : Prop where
  named : ∃ c ∈ o.name.toList, Text.isSpace c = false
  probeLimit : ∀ n ∈ o.probeLimit, 1 ≤ n ∧ n < 0x100000000
  closedWindowSecs : ∀ n ∈ o.closedWindowSecs, n < 0x8000000000000000
  openDurationSecs : ∀ n ∈ o.openDurationSecs, n < 0x8000000000000000
  threshold : o.threshold = none
  minRequests : ∀ n ∈ o.minRequests, n < 0x100000000

/-- The entry for a limit, if it is set. -/
def setEntry (key : String) (n : Option Nat) : Table :=
  (n.map fun n => (key, .integer n)).toList

/-- The entries of the table for an override. -/
def entries (o : Override) : Table :=
  ("name", .text o.name) ::
    (setEntry "probe_limit" o.probeLimit ++ setEntry "closed_window_secs" o.closedWindowSecs ++
      setEntry "open_duration_secs" o.openDurationSecs ++ setEntry "min_requests" o.minRequests)

/-- The lines write the override: a header, then the entries in any order, each in a
line, then any number of empty lines. -/
def WrittenAs (o : Override) (ls : List (List Char)) : Prop :=
  ∃ t body blanks, t.Perm o.entries ∧ List.Forall₂ WritesEntry t body ∧
    ls = elementLine "breakers" :: (body ++ List.replicate blanks [])

/-! ### One way to write them -/

/-- The line for a name. -/
def nameLine (name : String) : List Char :=
  "name".toList ++ ' ' :: '=' :: ' ' :: '"' :: (name.toList.flatMap spellChar ++ ['"'])

/-- The line for a limit, if it is set. -/
def setLine (key : String) (n : Option Nat) : List (List Char) :=
  (n.map fun n => key.toList ++ ' ' :: '=' :: ' ' :: Nat.toDigits 10 n).toList

/-- The lines for an override. -/
def lines (o : Override) : List (List Char) :=
  elementLine "breakers" :: nameLine o.name ::
    (setLine "probe_limit" o.probeLimit ++ setLine "closed_window_secs" o.closedWindowSecs ++
      setLine "open_duration_secs" o.openDurationSecs ++ setLine "min_requests" o.minRequests)

theorem writesEntry_setLine (key : String) (n : Option Nat) :
    List.Forall₂ WritesEntry (setEntry key n) (setLine key n) := by
  cases n with
  | none => exact .nil
  | some n => exact .cons (.decimal key n) .nil

theorem writtenAs_lines (o : Override) : o.WrittenAs o.lines := by
  refine ⟨o.entries, _, 0, .refl _, .cons (.text "name" (spelled_flatMap o.name.toList)) ?_,
    by rw [List.replicate_zero, List.append_nil]; rfl⟩
  exact List.rel_append (List.rel_append (List.rel_append (writesEntry_setLine _ _)
    (writesEntry_setLine _ _)) (writesEntry_setLine _ _)) (writesEntry_setLine _ _)

/-! ## The table of an override -/

/-- The keys of overrides. -/
def overrideKeys : List String :=
  ["name", "probe_limit", "closed_window_secs", "open_duration_secs", "min_requests"]

theorem isBare_of_mem {key : String} (h : key ∈ overrideKeys) : IsBare key := by
  have hall : ∀ key ∈ overrideKeys, key.toList ≠ [] ∧ key.toList.all isBareChar := by decide
  exact hall key h

/-- The keys of a table are some of those of overrides, in their order. -/
theorem keys_entries (o : Override) : (o.entries.map Prod.fst).Sublist overrideKeys := by
  have hset : ∀ key n, ((setEntry key n).map Prod.fst).Sublist [key] := by
    intro key n
    cases n with
    | none => exact List.nil_sublist [key]
    | some n => exact List.Sublist.refl [key]
  rw [Override.entries, List.map_cons, List.map_append, List.map_append, List.map_append]
  exact (((hset _ _).append (hset _ _)).append (hset _ _)).append (hset _ _) |>.cons_cons "name"

theorem nodup_keys_entries (o : Override) : (o.entries.map Prod.fst).Nodup :=
  (keys_entries o).nodup (by decide)

theorem mem_setEntry {key : String} {n : Option Nat} {e : String × Value} :
    e ∈ setEntry key n ↔ ∃ m ∈ n, e = (key, .integer m) := by
  cases n <;> simp [setEntry]

theorem proper_entries (h : o.Writable) : (Value.table o.entries).Proper := by
  refine .table (nodup_keys_entries o) fun e he => ?_
  have hset : ∀ {key n}, (∀ m ∈ n, m < 0x8000000000000000) → e ∈ setEntry key n → e.2.Proper := by
    intro key n hn he
    obtain ⟨m, hm, rfl⟩ := mem_setEntry.1 he
    have hlt := hn m hm
    exact .integer (by omega) (by omega)
  have hprobes : ∀ m ∈ o.probeLimit, m < 0x8000000000000000 := fun m hm => by
    have hlt := (h.probeLimit m hm).2
    omega
  have hrequests : ∀ m ∈ o.minRequests, m < 0x8000000000000000 := fun m hm => by
    have hlt := h.minRequests m hm
    omega
  simp only [Override.entries, List.mem_cons, List.mem_append] at he
  rcases he with rfl | ((he | he) | he) | he
  · exact .text o.name
  · exact hset hprobes he
  · exact hset h.closedWindowSecs he
  · exact hset h.openDurationSecs he
  · exact hset hrequests he

/-- The lines of an override say the header and the entries of its table. -/
theorem readsAs_of_writtenAs {ls : List (List Char)} (hwritable : o.Writable)
    (h : o.WrittenAs ls) :
    ∃ t said, t.Perm o.entries ∧ List.Forall₂ ReadsAs ls said ∧
      said.flatten = elementSaid "breakers" t := by
  obtain ⟨t, body, blanks, hperm, hbody, rfl⟩ := h
  have ht : ∀ e ∈ t, IsBare e.1 ∧ e.2.Proper := by
    intro e he
    have hmem := hperm.mem_iff.1 he
    have hkey := (keys_entries o).subset (List.mem_map_of_mem hmem)
    cases proper_entries hwritable with
    | table _ hvalues => exact ⟨isBare_of_mem hkey, hvalues e hmem⟩
  have hheader : IsBare "breakers" := ⟨by decide, by decide⟩
  refine ⟨t, [.element [] "breakers"] :: (t.map (fun e => [.pair [] e.1 e.2]) ++
    List.replicate blanks []), hperm, .cons (readsAs_elementLine hheader) ?_, ?_⟩
  · exact List.rel_append (readsAs_entries hbody ht) (readsAs_blanks blanks)
  · have hpairs : (t.map fun e => [Statement.pair [] e.1 e.2]).flatten =
        t.map fun e => .pair [] e.1 e.2 := by
      rw [← List.flatMap_def, ← List.map_eq_flatMap]
    rw [List.flatten_cons, List.flatten_append, hpairs, List.flatten_replicate_nil,
      List.append_nil, elementSaid, List.singleton_append]

theorem lookup_setEntry {key other : String} {n : Option Nat} :
    (setEntry key n).lookup other = if other = key then n.map fun m => .integer m else none := by
  cases n with
  | none => simp [setEntry]
  | some m =>
    by_cases hkey : other = key
    · subst hkey
      simp [setEntry]
    · simp [setEntry, Table.lookup_cons_of_ne hkey, hkey]

theorem lookup_entries {key : String} (hkey : key ≠ "name") :
    o.entries.lookup key =
      ((((setEntry "probe_limit" o.probeLimit).lookup key).or
        ((setEntry "closed_window_secs" o.closedWindowSecs).lookup key)).or
          ((setEntry "open_duration_secs" o.openDurationSecs).lookup key)).or
            ((setEntry "min_requests" o.minRequests).lookup key) := by
  rw [Override.entries, Table.lookup_cons_of_ne hkey, List.lookup_append, List.lookup_append,
    List.lookup_append]

/-- A limit that is set is read from its entry, and one that is not is read as not
set. -/
theorem entry_of_lookup {key : String} {Is : Value → Nat → Prop} {n : Option Nat}
    (hlookup : t.lookup key = n.map fun m => .integer m)
    (hn : ∀ m ∈ n, Is (.integer m) m) : t.Entry key (Table.Sets Is) none n := by
  cases n with
  | none => exact (Table.entry_of_none hlookup).2 rfl
  | some m => exact (Table.entry_of_some hlookup).2 ⟨m, rfl, hn m rfl⟩

theorem saysOverride_entries (h : o.Writable) : Table.SaysOverride o.entries o where
  name := Table.lookup_cons_self
  probeLimit := by
    refine entry_of_lookup ?_ fun m hm => ⟨rfl, (h.probeLimit m hm).2⟩
    simp [lookup_entries, lookup_setEntry]
  closedWindowSecs := by
    refine entry_of_lookup ?_ fun m hm => rfl
    simp [lookup_entries, lookup_setEntry]
  openDurationSecs := by
    refine entry_of_lookup ?_ fun m hm => rfl
    simp [lookup_entries, lookup_setEntry]
  threshold := by
    rw [h.threshold]
    refine (Table.entry_of_none ?_).2 rfl
    simp [lookup_entries, lookup_setEntry]
  minRequests := by
    refine entry_of_lookup ?_ fun m hm => ⟨rfl, h.minRequests m hm⟩
    simp [lookup_entries, lookup_setEntry]

/-- In whatever order its entries stand, the table says the override. -/
theorem saysOverride_perm (hperm : t.Perm o.entries) (h : o.Writable) : t.SaysOverride o := by
  have hkeys := nodup_keys_entries o
  have htold := saysOverride_entries h
  exact
    { name := by rw [Table.lookup_perm hkeys hperm.symm, htold.name]
      probeLimit := (Table.entry_perm hkeys hperm.symm).2 htold.probeLimit
      closedWindowSecs := (Table.entry_perm hkeys hperm.symm).2 htold.closedWindowSecs
      openDurationSecs := (Table.entry_perm hkeys hperm.symm).2 htold.openDurationSecs
      threshold := (Table.entry_perm hkeys hperm.symm).2 htold.threshold
      minRequests := (Table.entry_perm hkeys hperm.symm).2 htold.minRequests }

end Override

namespace Settings

variable {os : List Override} {tables : List Table}

/-! ## Writing a list of overrides -/

/-- The text writes the overrides, one after another. -/
def Writes (text : String) (os : List Override) : Prop :=
  ∃ parts, List.Forall₂ Override.WrittenAs os parts ∧ text.toList = unlines parts.flatten

/-- The text for overrides. -/
def write (os : List Override) : String := String.ofList (unlines (os.flatMap Override.lines))

theorem writes_write (os : List Override) : Writes (write os) os := by
  refine ⟨os.map Override.lines, ?_, ?_⟩
  · rw [List.forall₂_map_right_iff, List.forall₂_same]
    exact fun o _ => Override.writtenAs_lines o
  · rw [write, String.toList_ofList, List.flatMap_def]

example : write [{ name := "a\"b\n", minRequests := some 70 }] =
    "[[breakers]]\nname = \"a\\\"b\\u000a\"\nmin_requests = 70\n" := by decide +kernel

/-! ## From the text to tables -/

/-- The lines of overrides say a table for each of them. -/
theorem exists_tables {parts : List (List (List Char))} (hwritable : ∀ o ∈ os, o.Writable)
    (h : List.Forall₂ Override.WrittenAs os parts) :
    ∃ tables said, List.Forall₂ (fun t o => t.Perm o.entries) tables os ∧
      List.Forall₂ ReadsAs parts.flatten said ∧
      said.flatten = tables.flatMap (elementSaid "breakers") := by
  induction h with
  | nil => exact ⟨[], [], .nil, .nil, rfl⟩
  | cons hpart _ ih =>
    obtain ⟨hfirst, hrest⟩ := List.forall_mem_cons.1 hwritable
    obtain ⟨tables, said, htables, hreads, hsaid⟩ := ih hrest
    obtain ⟨t, first, hperm, hlines, hfirstSaid⟩ := Override.readsAs_of_writtenAs hfirst hpart
    refine ⟨t :: tables, first ++ said, .cons hperm htables, List.rel_append hlines hreads, ?_⟩
    rw [List.flatten_append, hfirstSaid, hsaid, List.flatMap_cons]

/-- The text does not start with a byte order mark. -/
theorem head_of_writtenAs {parts : List (List (List Char))}
    (h : List.Forall₂ Override.WrittenAs os parts) :
    ∀ c ∈ (unlines parts.flatten).head?, c ≠ '\uFEFF' := by
  cases h with
  | nil => nofun
  | cons hpart _ =>
    obtain ⟨t, body, blanks, -, -, rfl⟩ := hpart
    intro c hc
    obtain rfl : '[' = c := Option.some.inj hc
    decide

/-! ## From tables to settings -/

theorem saysOverride_tables (hwritable : ∀ o ∈ os, o.Writable)
    (h : List.Forall₂ (fun t o => t.Perm o.entries) tables os) :
    List.Forall₂ Table.SaysOverride tables os ∧ ∀ t ∈ tables, (Value.table t).Proper := by
  induction h with
  | nil => exact ⟨.nil, nofun⟩
  | @cons t o tables os hperm _ ih =>
    obtain ⟨hfirst, hrest⟩ := List.forall_mem_cons.1 hwritable
    obtain ⟨htold, hproper⟩ := ih hrest
    have hfirstProper : (Value.table t).Proper :=
      Table.proper_perm (Override.proper_entries hfirst) hperm.symm
    exact ⟨.cons (Override.saysOverride_perm hperm hfirst) htold,
      List.forall_mem_cons.2 ⟨hfirstProper, hproper⟩⟩

theorem shaped_arrayDocument (tables : List Table) :
    Table.Shaped (arrayDocument "breakers" tables) where
  observability := by simp [lookup_arrayDocument_of_ne]
  defaults := by simp [lookup_arrayDocument_of_ne]
  breakers := by
    intro v hv
    rw [lookup_arrayDocument, Option.ite_none_left_eq_some, Option.some.injEq] at hv
    exact ⟨tables, hv.2.symm⟩

/-- A document that holds just the tables of overrides says settings with these
overrides. -/
theorem saysSettings_arrayDocument (h : List.Forall₂ Table.SaysOverride tables os) :
    Table.SaysSettings (arrayDocument "breakers" tables) { breakers := os } := by
  refine ⟨(Table.entry_of_none (lookup_arrayDocument_of_ne (by decide))).2 rfl,
    (Table.entry_of_none (lookup_arrayDocument_of_ne (by decide))).2 rfl, ?_⟩
  cases h with
  | nil =>
    -- Without overrides there is no array at all, and the list is empty by default.
    exact (Table.entry_of_none rfl).2 rfl
  | cons hfirst hrest =>
    exact (Table.entry_of_some lookup_arrayDocument).2 ⟨_, rfl, .cons hfirst hrest⟩

/-- Settings with such overrides have no faults. -/
theorem faults_of_writable (hdistinct : (os.map Override.name).Nodup)
    (hwritable : ∀ o ∈ os, o.Writable) : Settings.faults { breakers := os } = [] := by
  have hthree : 1 ≤ 3 := by decide
  have hhalf : Binary64.half.InUnit := by decide +kernel
  have hdefault : ({ breakers := os } : Settings).defaults.threshold = .half := by simp only
  rw [← hdefault] at hhalf
  rw [Settings.faults_eq_nil_iff]
  refine ⟨hthree, hhalf, fun o ho => (hwritable o ho).named, hdistinct, fun o ho => ?_,
    fun o ho => ?_⟩
  · cases hlimit : o.probeLimit with
    | none => exact hthree
    | some n => exact ((hwritable o ho).probeLimit n hlimit).1
  · rw [(hwritable o ho).threshold]
    exact hhalf

theorem parse_of_read {text : String} {settings : Settings} (hread : read text = .ok settings)
    (hfaults : settings.faults = []) : parse text = .ok settings := by
  rw [parse, hread]
  change (if settings.faults.isEmpty then _ else _) = _
  rw [hfaults]
  rfl

/-- Overrides that are written out are read back, in whatever way they are
written. -/
theorem parse_written {os : List Override} (hdistinct : (os.map Override.name).Nodup)
    (hwritable : ∀ o ∈ os, o.Writable) :
    Writes (write os) os ∧ ∀ text, Writes text os → parse text = .ok { breakers := os } := by
  refine ⟨writes_write os, fun text htext => ?_⟩
  obtain ⟨parts, hparts, hlines⟩ := htext
  obtain ⟨tables, said, htables, hreads, hsaid⟩ := exists_tables hwritable hparts
  obtain ⟨htold, hproper⟩ := saysOverride_tables hwritable htables
  have hmark : ∀ c ∈ text.toList.head?, c ≠ '\uFEFF' := by
    rw [hlines]
    exact head_of_writtenAs hparts
  have hparse : Toml.parse? text = some (arrayDocument "breakers" tables) :=
    parse?_lines hlines hmark hreads hsaid fun t ht => Table.nodup_of_proper (hproper t ht)
  have hread : read text = .ok { breakers := os } :=
    (Decode.read_eq_ok hparse (shaped_arrayDocument tables)).2 (saysSettings_arrayDocument htold)
  exact parse_of_read hread (faults_of_writable hdistinct hwritable)

/-- Limits before the name, escapes of both kinds in it, and the largest number of
seconds. -/
theorem parse_written_escapes :
    ([{ name := "a\"b\n", probeLimit := some 5, minRequests := some 0 },
      { name := "x", openDurationSecs := some 9223372036854775807 }].map Override.name).Nodup ∧
    parse ("[[breakers]]\nmin_requests = 0\nname = \"a\\\"b\\u000A\"\nprobe_limit = 5\n\n" ++
      "[[breakers]]\nname = \"x\"\nopen_duration_secs = 9223372036854775807\n") =
      .ok { breakers :=
        [{ name := "a\"b\n", probeLimit := some 5, minRequests := some 0 },
          { name := "x", openDurationSecs := some 9223372036854775807 }] } := by
  have hdistinct : ([{ name := "a\"b\n", probeLimit := some 5, minRequests := some 0 },
      { name := "x", openDurationSecs := some 9223372036854775807 }].map Override.name).Nodup := by
    decide
  refine ⟨hdistinct, (parse_written hdistinct ?writable).2 _ ?writes⟩
  case writable =>
    simp only [List.forall_mem_cons]
    exact ⟨⟨⟨'a', by decide, rfl⟩, by simp, by simp, by simp, rfl, by simp⟩,
      ⟨⟨'x', by decide, rfl⟩, by simp, by simp, by simp, rfl, by simp⟩, nofun⟩
  case writes =>
    have hname : Spelled "a\"b\n".toList ['a', '\\', '"', 'b', '\\', 'u', '0', '0', '0', 'A'] := by
      have hchars : "a\"b\n".toList = ['a', '"', 'b', '\n'] := by decide
      have hfeed : WritesHex ['0', '0', '0', 'A'] '\n'.toNat :=
        ⟨[0, 0, 0, 10], by simp [HexDigit, Nat.digitChar], rfl⟩
      rw [hchars]
      exact .cons (.plain (by decide) (by decide) (by decide)) (.cons (.short (by decide))
        (.cons (.plain (by decide) (by decide) (by decide)) (.cons (.code rfl hfeed) .nil)))
    have hother : Spelled "x".toList ['x'] := by
      have hchars : "x".toList = ['x'] := by decide
      rw [hchars]
      exact .cons (.plain (by decide) (by decide) (by decide)) .nil
    have hfirst : Override.WrittenAs
        { name := "a\"b\n", probeLimit := some 5, minRequests := some 0 } _ :=
      ⟨[("min_requests", .integer 0), ("name", .text "a\"b\n"), ("probe_limit", .integer 5)], _, 1,
        (List.Perm.swap _ _ _).trans (.cons _ (.swap _ _ _)),
        .cons (.decimal _ 0) (.cons (.text _ hname) (.cons (.decimal _ 5) .nil)), rfl⟩
    have hsecond : Override.WrittenAs
        { name := "x", openDurationSecs := some 9223372036854775807 } _ :=
      ⟨_, _, 0, .refl _, .cons (.text _ hother) (.cons (.decimal _ _) .nil), rfl⟩
    refine ⟨_, .cons hfirst (.cons hsecond .nil), ?_⟩
    decide +kernel

end Settings

end Breaker
