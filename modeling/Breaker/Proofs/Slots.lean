import Breaker.Settings.Decode
import Breaker.Proofs.Tables

/-!
# Reading a table into a record

Reading takes the entries of a table one after another and puts each into its
field.  What is read is said here by look-ups instead, so that neither the order
of the entries nor keys that nobody knows can matter.

* A `Slot` is a field with its key and its reader, and `Lawful` says that slots
  stand apart from one another.
* `entry_of_fields` carries the meaning of one slot through all entries, and
  `exists_fields` says when all of them can be taken.
* `fields_eq_ok_iff` joins the two: a table is read just when each slot holds what
  the table says about its key.  `fields_perm` and `fields_padded` follow.
-/

namespace Breaker

open Toml

namespace Settings.Decode

/-! ## Records and their slots -/

/-- A field of a record: its key, how its value is read, and where it stands. -/
structure Slot (α : Type) where
  key : String
  {β : Type}
  read : Value → Fit β
  get : α → β
  put : β → α → α

variable {α : Type} {slots : List (Slot α)} {s : Slot α} {a a' : α}

/-- Takes an entry of a record into the slot of its key; other keys say nothing. -/
def takeSlot : List (Slot α) → α → String → Value → Fit α
  | [], a, _, _ => .ok a
  | s :: slots, a, key, v =>
    if key = s.key then do return s.put (← s.read v) a else takeSlot slots a key v

/-- Slots that stand apart from one another. -/
structure Lawful (slots : List (Slot α)) : Prop where
  keys : (slots.map Slot.key).Nodup
  get_put : ∀ s ∈ slots, ∀ b a, s.get (s.put b a) = b
  get_put_of_ne : ∀ s ∈ slots, ∀ s' ∈ slots, s.key ≠ s'.key → ∀ b a, s'.get (s.put b a) = s'.get a

theorem bind_eq_ok {β : Type} {x : Fit α} {f : α → Fit β} {b : β} :
    (x >>= f) = .ok b ↔ ∃ a, x = .ok a ∧ f a = .ok b := by
  cases x with
  | ok a => exact ⟨fun h => ⟨a, rfl, h⟩, fun ⟨_, rfl, h⟩ => h⟩
  | error e => exact ⟨nofun, fun ⟨_, h, _⟩ => nomatch h⟩

theorem takeSlot_of_notMem {key : String} (h : key ∉ slots.map Slot.key) (a : α) (v : Value) :
    takeSlot slots a key v = .ok a := by
  induction slots with
  | nil => rfl
  | cons s slots ih =>
    rw [List.map_cons, List.mem_cons, not_or] at h
    rw [takeSlot, if_neg h.1, ih h.2]

theorem takeSlot_of_mem (hkeys : (slots.map Slot.key).Nodup) (hs : s ∈ slots) (a : α) (v : Value) :
    takeSlot slots a s.key v = do return s.put (← s.read v) a := by
  induction slots with
  | nil => cases hs
  | cons first slots ih =>
    obtain ⟨hnew, hkeys⟩ := List.nodup_cons.1 hkeys
    rcases List.mem_cons.1 hs with rfl | hs
    · rw [takeSlot, if_pos rfl]
    · have hne : s.key ≠ first.key := fun heq => hnew (heq ▸ List.mem_map_of_mem hs)
      rw [takeSlot, if_neg hne, ih hkeys hs]

/-- An entry leaves the slots of other keys alone. -/
theorem get_takeSlot_of_ne (hslots : Lawful slots) (hs : s ∈ slots) {key : String} {v : Value}
    (hkey : s.key ≠ key) (h : takeSlot slots a key v = .ok a') : s.get a' = s.get a := by
  by_cases hmem : key ∈ slots.map Slot.key
  · obtain ⟨s', hs', rfl⟩ := List.mem_map.1 hmem
    rw [takeSlot_of_mem hslots.keys hs', bind_eq_ok] at h
    obtain ⟨b, -, hput⟩ := h
    cases hput
    exact hslots.get_put_of_ne s' hs' s hs (Ne.symm hkey) b a
  · rw [takeSlot_of_notMem hmem] at h
    cases h
    rfl

/-- What has been read into a slot is what the table says about its key. -/
theorem entry_of_fields (hslots : Lawful slots) {t : Table} (hkeys : (t.map Prod.fst).Nodup)
    (h : fields (takeSlot slots) a t = .ok a') (hs : s ∈ slots) :
    t.Entry s.key (fun v b => s.read v = .ok b) (s.get a) (s.get a') := by
  induction t generalizing a with
  | nil =>
    cases h
    exact rfl
  | cons e t ih =>
    obtain ⟨key, v⟩ := e
    obtain ⟨hnew, hkeys⟩ := List.nodup_cons.1 hkeys
    obtain ⟨a₁, htake, hrest⟩ := bind_eq_ok.1 h
    have hlater := ih hkeys hrest
    by_cases hkey : s.key = key
    · subst hkey
      -- The key does not come again, so the slot keeps what it gets from this entry.
      rw [Table.entry_of_none (Table.lookup_eq_none_iff.2 hnew)] at hlater
      rw [takeSlot_of_mem hslots.keys hs, bind_eq_ok] at htake
      obtain ⟨b, hread, hput⟩ := htake
      cases hput
      rw [Table.entry_of_some Table.lookup_cons_self, hlater, hslots.get_put s hs]
      exact hread
    · rw [get_takeSlot_of_ne hslots hs hkey htake] at hlater
      rw [Table.Entry, Table.lookup_cons_of_ne hkey]
      exact hlater

/-- A table is read when the value of every key that has a slot is. -/
theorem exists_fields (hslots : Lawful slots) {t : Table}
    (h : ∀ s ∈ slots, ∀ v, (s.key, v) ∈ t → ∃ b, s.read v = .ok b) (a : α) :
    ∃ a', fields (takeSlot slots) a t = .ok a' := by
  induction t generalizing a with
  | nil => exact ⟨a, rfl⟩
  | cons e t ih =>
    obtain ⟨key, v⟩ := e
    obtain ⟨a₁, htake⟩ : ∃ a₁, takeSlot slots a key v = .ok a₁ := by
      by_cases hmem : key ∈ slots.map Slot.key
      · obtain ⟨s, hs, rfl⟩ := List.mem_map.1 hmem
        obtain ⟨b, hread⟩ := h s hs v List.mem_cons_self
        exact ⟨s.put b a, by rw [takeSlot_of_mem hslots.keys hs, hread]; rfl⟩
      · exact ⟨a, takeSlot_of_notMem hmem a v⟩
    obtain ⟨a', hrest⟩ := ih (fun s hs w hw => h s hs w (List.mem_cons_of_mem _ hw)) a₁
    exact ⟨a', bind_eq_ok.2 ⟨a₁, htake, hrest⟩⟩

/-- A table that says something about every slot is read, and as just that. -/
theorem fields_of_entries (hslots : Lawful slots) {t : Table} (hkeys : (t.map Prod.fst).Nodup)
    (h : ∀ s ∈ slots, ∃ b, t.Entry s.key (fun v b => s.read v = .ok b) (s.get a) b) :
    ∃ a', fields (takeSlot slots) a t = .ok a' ∧
      ∀ s ∈ slots, t.Entry s.key (fun v b => s.read v = .ok b) (s.get a) (s.get a') := by
  have hread : ∀ s ∈ slots, ∀ v, (s.key, v) ∈ t → ∃ b, s.read v = .ok b := by
    intro s hs v hv
    exact Table.exists_entry_iff.1 (h s hs) v ((Table.lookup_eq_some_iff hkeys).2 hv)
  obtain ⟨a', hfields⟩ := exists_fields hslots hread a
  exact ⟨a', hfields, fun s hs => entry_of_fields hslots hkeys hfields hs⟩

theorem entry_read_unique {t : Table} {β : Type} {read : Value → Fit β} {key : String}
    {default b b' : β} (h : t.Entry key (fun v b => read v = .ok b) default b)
    (h' : t.Entry key (fun v b => read v = .ok b) default b') : b = b' :=
  Table.Entry.unique (fun h h' => Except.ok.inj (h.symm.trans h')) h h'

/-- A table is read as the one record whose slots hold what it says. -/
theorem fields_eq_ok_iff (hslots : Lawful slots)
    (hext : ∀ a a', (∀ s ∈ slots, s.get a = s.get a') → a = a') {t : Table}
    (hkeys : (t.map Prod.fst).Nodup) :
    fields (takeSlot slots) a t = .ok a' ↔
      ∀ s ∈ slots, t.Entry s.key (fun v b => s.read v = .ok b) (s.get a) (s.get a') := by
  constructor
  · exact fun h s hs => entry_of_fields hslots hkeys h hs
  · intro h
    obtain ⟨a₁, hfields, hentries⟩ :=
      fields_of_entries hslots hkeys fun s hs => ⟨s.get a', h s hs⟩
    rw [hfields, hext a₁ a' fun s hs => entry_read_unique (hentries s hs) (h s hs)]

/-- The order of the entries does not matter to what is read. -/
theorem fields_perm (hslots : Lawful slots)
    (hext : ∀ a a', (∀ s ∈ slots, s.get a = s.get a') → a = a') {t t' : Table}
    (hkeys : (t.map Prod.fst).Nodup) (hperm : t.Perm t') :
    fields (takeSlot slots) a t' = .ok a' ↔ fields (takeSlot slots) a t = .ok a' := by
  have hkeys' : (t'.map Prod.fst).Nodup := (hperm.map Prod.fst).nodup_iff.1 hkeys
  rw [fields_eq_ok_iff hslots hext hkeys, fields_eq_ok_iff hslots hext hkeys']
  exact forall₂_congr fun s _ => Table.entry_perm hkeys hperm

/-- Entries of other keys change nothing, not even the misfit that is reported. -/
theorem fields_knownTo (t : Table) (a : α) :
    fields (takeSlot slots) a (t.knownTo (slots.map Slot.key)) = fields (takeSlot slots) a t := by
  induction t generalizing a with
  | nil => rfl
  | cons e t ih =>
    obtain ⟨key, v⟩ := e
    rw [Table.knownTo] at ih ⊢
    by_cases hkey : key ∈ slots.map Slot.key
    · simp only [List.filter_cons, hkey, decide_true, if_true, fields, ih]
    · simp only [List.filter_cons, hkey, decide_false, Bool.false_eq_true, if_false, ih, fields,
        takeSlot_of_notMem hkey]
      rfl

theorem fields_padded (slots : List (Slot α)) {t t' : Table}
    (h : t.Padded (slots.map Slot.key) t') (a : α) :
    fields (takeSlot slots) a t' = fields (takeSlot slots) a t := by
  rw [Table.Padded] at h
  rw [← fields_knownTo t', h, fields_knownTo]

end Settings.Decode

end Breaker
