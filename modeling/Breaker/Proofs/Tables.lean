import Breaker.Toml.Value
import Mathlib.Data.List.Nodup

/-!
# Tables of a document

A table is a list of entries, and what it says about a key is the value that a
look-up finds.

* `Value.Proper` is what the standard promises of a value: whole numbers of 64
  bits, and no key twice in a table;
* `Table.Entry` says what a table that may lack a key is read as;
* `Table.Padded` relates tables that differ only in entries whose keys nobody
  asks for.
-/

namespace Breaker.Toml

/-- The entries of a table in order. -/
abbrev Table := List (String × Value)

/-- A value as the standard has it: whole numbers have 64 bits with a sign, and no
key stands twice in a table. -/
inductive Value.Proper : Value → Prop
  | text (s : String) : Proper (.text s)
  | integer {n : Int} (hlow : -0x8000000000000000 ≤ n) (hhigh : n < 0x8000000000000000) :
      Proper (.integer n)
  | float (x : Binary64) : Proper (.float x)
  | boolean (b : Bool) : Proper (.boolean b)
  | dateTime : Proper .dateTime
  | array {items : List Value} (hitems : ∀ v ∈ items, Proper v) : Proper (.array items)
  | table {t : Table} (hkeys : (t.map Prod.fst).Nodup) (hvalues : ∀ e ∈ t, Proper e.2) :
      Proper (.table t)

namespace Table

section

variable {β : Type} {t t' : List (String × β)} {key : String} {v : β}

/-! ## Looking up -/

theorem lookup_cons_self : List.lookup key ((key, v) :: t) = some v := by
  rw [List.lookup_cons, beq_self_eq_true]

theorem lookup_cons_of_ne {other : String} (h : key ≠ other) :
    List.lookup key ((other, v) :: t) = t.lookup key := by
  have hother : (key == other) = false := beq_eq_false_iff_ne.2 h
  rw [List.lookup_cons, hother]

theorem lookup_eq_none_iff : t.lookup key = none ↔ key ∉ t.map Prod.fst := by
  rw [List.lookup_eq_none_iff]
  constructor
  · intro h hmem
    obtain ⟨e, he, rfl⟩ := List.mem_map.1 hmem
    exact absurd (h e he) (by simp)
  · intro h e he
    rw [bne_iff_ne]
    rintro rfl
    exact h (List.mem_map_of_mem he)

theorem mem_of_lookup (h : t.lookup key = some v) : (key, v) ∈ t := by
  obtain ⟨before, after, rfl, -⟩ := List.lookup_eq_some_iff.1 h
  exact List.mem_append_right _ List.mem_cons_self

theorem lookup_eq_some_iff (hkeys : (t.map Prod.fst).Nodup) :
    t.lookup key = some v ↔ (key, v) ∈ t := by
  refine ⟨mem_of_lookup, fun hmem => ?_⟩
  obtain ⟨before, after, rfl⟩ := List.append_of_mem hmem
  rw [List.map_append, List.map_cons, List.nodup_append] at hkeys
  have hnew : key ∉ before.map Prod.fst := fun hbefore =>
    hkeys.2.2 key hbefore key List.mem_cons_self rfl
  rw [List.lookup_append, lookup_eq_none_iff.2 hnew, Option.none_or, lookup_cons_self]

/-- The order of the entries does not matter to a look-up. -/
theorem lookup_perm (hkeys : (t.map Prod.fst).Nodup) (hperm : t.Perm t') (key : String) :
    t'.lookup key = t.lookup key := by
  have hkeys' : (t'.map Prod.fst).Nodup := (hperm.map Prod.fst).nodup_iff.1 hkeys
  refine Option.ext fun v => ?_
  rw [lookup_eq_some_iff hkeys', lookup_eq_some_iff hkeys, hperm.mem_iff]

end

variable {t t' : Table} {key : String} {v : Value} {α : Type} {a a' default : α}
variable {Is Is' : Value → α → Prop}

/-! ## Proper tables -/

theorem proper_perm (h : (Value.table t).Proper) (hperm : t.Perm t') :
    (Value.table t').Proper := by
  cases h with
  | table hkeys hvalues =>
    exact .table ((hperm.map Prod.fst).nodup_iff.1 hkeys)
      fun e he => hvalues e (hperm.mem_iff.2 he)

theorem nodup_of_proper (h : (Value.table t).Proper) : (t.map Prod.fst).Nodup := by
  cases h with
  | table hkeys _ => exact hkeys

theorem proper_of_lookup (h : (Value.table t).Proper) (hlookup : t.lookup key = some v) :
    v.Proper := by
  cases h with
  | table hkeys hvalues => exact hvalues (key, v) ((lookup_eq_some_iff hkeys).1 hlookup)

/-! ## What a table says about a key -/

/-- The value of the key is read as `a`; where the key is absent, `a` is the
default. -/
def Entry (t : Table) (key : String) (Is : Value → α → Prop) (default a : α) : Prop :=
  match t.lookup key with
  | some v => Is v a
  | none => a = default

theorem entry_of_some (h : t.lookup key = some v) : t.Entry key Is default a ↔ Is v a := by
  rw [Entry, h]

theorem entry_of_none (h : t.lookup key = none) :
    t.Entry key Is default a ↔ a = default := by
  rw [Entry, h]

theorem entry_congr (h : ∀ v, t.lookup key = some v → ∀ a, Is v a ↔ Is' v a) :
    t.Entry key Is default a ↔ t.Entry key Is' default a := by
  cases hlookup : t.lookup key with
  | some v => rw [entry_of_some hlookup, entry_of_some hlookup, h v hlookup]
  | none => rw [entry_of_none hlookup, entry_of_none hlookup]

theorem entry_perm (hkeys : (t.map Prod.fst).Nodup) (hperm : t.Perm t') :
    t'.Entry key Is default a ↔ t.Entry key Is default a := by
  rw [Entry, Entry, lookup_perm hkeys hperm]

theorem exists_entry_iff :
    (∃ a, t.Entry key Is default a) ↔ ∀ v, t.lookup key = some v → ∃ a, Is v a := by
  cases hlookup : t.lookup key with
  | some v => simp [entry_of_some hlookup]
  | none => simp [entry_of_none hlookup]

/-- An entry says no more than one thing when its value does. -/
theorem Entry.unique (hIs : ∀ {v a a'}, Is v a → Is v a' → a = a')
    (h : t.Entry key Is default a) (h' : t.Entry key Is default a') : a = a' := by
  cases hlookup : t.lookup key with
  | some v =>
    rw [entry_of_some hlookup] at h h'
    exact hIs h h'
  | none =>
    rw [entry_of_none hlookup] at h h'
    rw [h, h']

/-! ## Keys that nobody asks for -/

/-- The entries whose keys are known. -/
def knownTo (known : List String) (t : Table) : Table := t.filter fun e => e.1 ∈ known

/-- The tables differ in entries whose keys are not known, and in nothing else. -/
def Padded (known : List String) (t t' : Table) : Prop := t'.knownTo known = t.knownTo known

end Table

end Breaker.Toml
