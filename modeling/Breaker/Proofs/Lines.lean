import Breaker.Proofs.Spelling
import Breaker.Proofs.Tables

/-!
# Lines of a document

A document is read line by line, and grows by what its lines say.

* `ReadsAs` is said of a line: wherever it stands, the reader takes just this line
  and gets just these statements.  `statements_lines` is about any number of
  lines.
* `WritesEntry` lists the ways to write a key with its value in a line, and
  `readsAs_entry` reads each of them.
* `grow?_elements` is about headers `[[key]]`, each with lines for the keys of its
  table: they make one array, with a table for each header.
-/

namespace Breaker.Toml

variable {c : Char} {w rest : List Char}

/-! ## One line after another -/

/-- The text that has these lines. -/
def unlines (ls : List (List Char)) : List Char := ls.flatMap fun l => l ++ ['\n']

/-- The line says this, whatever comes after it. -/
def ReadsAs (l : List Char) (said : List Statement) : Prop :=
  ∀ fuel rest, statements (fuel + 1) (l ++ '\n' :: rest) = (statements fuel rest).map (said ++ ·)

theorem statements_nil (fuel : Nat) : statements fuel [] = some [] := by
  cases fuel <;> rfl

/-- Every line takes one unit of fuel. -/
theorem statements_lines {ls : List (List Char)} {said : List (List Statement)}
    (h : List.Forall₂ ReadsAs ls said) {fuel : Nat} (hfuel : ls.length ≤ fuel) :
    statements fuel (unlines ls) = some said.flatten := by
  induction h generalizing fuel with
  | nil => exact statements_nil fuel
  | @cons l s ls said hl _ ih =>
    rw [List.length_cons] at hfuel
    obtain ⟨fuel, rfl⟩ : ∃ k, fuel = k + 1 := ⟨fuel - 1, by omega⟩
    have hunlines : unlines (l :: ls) = l ++ '\n' :: unlines ls := by simp [unlines]
    rw [hunlines, hl, ih (by omega), Option.map_some, List.flatten_cons]

theorem length_le_unlines (ls : List (List Char)) : ls.length ≤ (unlines ls).length := by
  induction ls with
  | nil => exact Nat.le_refl 0
  | cons l ls ih =>
    rw [unlines] at ih
    rw [unlines, List.flatMap_cons, List.length_append, List.length_append, List.length_cons,
      List.length_singleton]
    omega

/-- An empty line says nothing. -/
theorem readsAs_nil : ReadsAs [] [] := by
  intro fuel rest
  have hblanks : skipBlanks ('\n' :: rest) = '\n' :: rest := rfl
  have hfinish : finishLine? ('\n' :: rest) = some rest := rfl
  rw [List.nil_append, statements, hblanks]
  simp only [or_true, true_or, if_true, hfinish, Option.bind_some]
  cases statements fuel rest <;> rfl

theorem readsAs_blanks (n : Nat) :
    List.Forall₂ ReadsAs (List.replicate n []) (List.replicate n []) := by
  induction n with
  | zero => exact .nil
  | succ n ih => exact .cons readsAs_nil ih

/-- A line says what its statement does, if that ends with the line. -/
theorem readsAs_statement {s : Statement} (hblank : isBlank c = false) (hcomment : c ≠ '#')
    (hfeed : c ≠ '\n') (hreturn : c ≠ '\r')
    (h : ∀ rest, statement (c :: (w ++ '\n' :: rest)) = some (s, '\n' :: rest)) :
    ReadsAs (c :: w) [s] := by
  intro fuel rest
  have hblanks : skipBlanks (c :: (w ++ '\n' :: rest)) = c :: (w ++ '\n' :: rest) :=
    skipBlanks_of_not_isBlank hblank
  have hfinish : finishLine? ('\n' :: rest) = some rest := rfl
  have hnone : ¬ (c = '#' ∨ c = '\n' ∨ c = '\r') := by simp [hcomment, hfeed, hreturn]
  rw [List.cons_append, statements, hblanks]
  simp only [hnone, if_false, h, Option.bind_eq_bind, Option.bind_some, hfinish]
  cases statements fuel rest <;> rfl

/-! ## Lines with a key -/

/-- A key that is written as it is. -/
def IsBare (key : String) : Prop := key.toList ≠ [] ∧ key.toList.all isBareChar

/-- The ways to write a key with its value: a text between double quotes, a number
in decimal digits. -/
inductive WritesEntry : String × Value → List Char → Prop
  | text (key : String) {s : String} {w : List Char} (h : Spelled s.toList w) :
      WritesEntry (key, .text s) (key.toList ++ ' ' :: '=' :: ' ' :: '"' :: (w ++ ['"']))
  | decimal (key : String) (n : Nat) :
      WritesEntry (key, .integer n) (key.toList ++ ' ' :: '=' :: ' ' :: Nat.toDigits 10 n)

theorem key_of_isBare {key : String} (hkey : IsBare key)
    (hstop : ∀ c ∈ rest.head?, isBareChar c = false)
    (hpoint : (skipBlanks rest).head? ≠ some '.') :
    Toml.key (key.toList ++ rest) = some ([key], skipBlanks rest) := by
  rw [key_bare (List.all_eq_true.1 hkey.2) hkey.1 hstop hpoint, String.ofList_toList]

/-- A key is a pair with the value behind it. -/
theorem pair_of_value {key : String} (hkey : IsBare key) {v : Value} (hc : isBlank c = false)
    (hvalue : value (nestingLimit - 1) (c :: w) = some (v, rest)) :
    pair (key.toList ++ ' ' :: '=' :: ' ' :: c :: w) = some (.pair [] key v, rest) := by
  have hblanks : skipBlanks (' ' :: '=' :: ' ' :: c :: w) = '=' :: ' ' :: c :: w := rfl
  have hvalueBlanks : skipBlanks (' ' :: c :: w) = c :: w := skipBlanks_of_not_isBlank hc
  have hread : Toml.key (key.toList ++ ' ' :: '=' :: ' ' :: c :: w) =
      some ([key], '=' :: ' ' :: c :: w) := by
    rw [key_of_isBare hkey, hblanks]
    · simp [isBareChar, isDigit]
    · rw [hblanks]
      simp
  have hmark : mark '=' ('=' :: ' ' :: c :: w) = some (' ' :: c :: w) := rfl
  have hsplit : splitKey [key] = some ([], key) := rfl
  unfold pair
  rw [hread, Option.bind_eq_bind, Option.bind_some]
  dsimp only
  rw [hmark, Option.bind_eq_bind, Option.bind_some, hvalueBlanks, hvalue, Option.bind_eq_bind,
    Option.bind_some]
  dsimp only
  rw [hsplit]
  rfl

theorem statement_eq_pair (hc : c ≠ '[') : statement (c :: w) = pair (c :: w) := by
  simp [statement, hc]

theorem pair_entry {e : String × Value} {l : List Char} (h : WritesEntry e l)
    (hkey : IsBare e.1) (hvalue : e.2.Proper) :
    pair (l ++ '\n' :: rest) = some (.pair [] e.1 e.2, '\n' :: rest) := by
  cases h with
  | text key h =>
    have hquoted : value (nestingLimit - 1) ('"' :: (_ ++ '"' :: '\n' :: rest)) =
        some (.text (String.ofList _), '\n' :: rest) := value_quoted h (nestingLimit - 1)
    rw [String.ofList_toList] at hquoted
    simpa using pair_of_value hkey rfl hquoted
  | decimal key n =>
    have hn : n < 0x8000000000000000 := by
      cases hvalue with
      | integer _ hhigh => omega
    have hdecimal : value (nestingLimit - 1) (Nat.toDigits 10 n ++ '\n' :: rest) =
        some (.integer n, '\n' :: rest) := value_decimal hn (nestingLimit - 1)
    obtain ⟨d, ds, hdigits, hd⟩ := exists_toDigits_eq n
    rw [hdigits] at hdecimal ⊢
    simpa using pair_of_value hkey (isBlank_of_isBareChar (isBareChar_of_isDigit hd)) hdecimal

/-- A line with a key says just that. -/
theorem readsAs_entry {e : String × Value} {l : List Char} (h : WritesEntry e l)
    (hkey : IsBare e.1) (hvalue : e.2.Proper) : ReadsAs l [.pair [] e.1 e.2] := by
  obtain ⟨c, w, rfl, hc⟩ : ∃ c w, l = c :: w ∧ isBareChar c = true := by
    obtain ⟨c, cs, hcs⟩ := List.exists_cons_of_ne_nil hkey.1
    have hc : isBareChar c = true := List.all_eq_true.1 hkey.2 c (hcs ▸ List.mem_cons_self)
    cases h <;> exact ⟨c, _, by rw [hcs]; rfl, hc⟩
  refine readsAs_statement (isBlank_of_isBareChar hc) (ne_of_class hc rfl)
    (ne_of_class hc rfl) (ne_of_class hc rfl) fun rest => ?_
  rw [statement_eq_pair (ne_of_class hc rfl)]
  exact pair_entry h hkey hvalue

theorem readsAs_entries {t : Table} {ls : List (List Char)} (h : List.Forall₂ WritesEntry t ls)
    (ht : ∀ e ∈ t, IsBare e.1 ∧ e.2.Proper) :
    List.Forall₂ ReadsAs ls (t.map fun e => [.pair [] e.1 e.2]) := by
  induction h with
  | nil => exact .nil
  | cons hl _ ih =>
    obtain ⟨⟨hkey, hvalue⟩, hrest⟩ := List.forall_mem_cons.1 ht
    exact .cons (readsAs_entry hl hkey hvalue) (ih hrest)

/-! ## Headers -/

/-- The header of the next table in an array. -/
def elementLine (key : String) : List Char := '[' :: '[' :: (key.toList ++ [']', ']'])

theorem readsAs_elementLine {key : String} (hkey : IsBare key) :
    ReadsAs (elementLine key) [.element [] key] := by
  refine readsAs_statement rfl (by decide) (by decide) (by decide) fun rest => ?_
  have hread : Toml.key (key.toList ++ ']' :: ']' :: '\n' :: rest) =
      some ([key], ']' :: ']' :: '\n' :: rest) := by
    rw [key_of_isBare hkey]
    · rfl
    · simp [isBareChar, isDigit]
    · simp [skipBlanks, isBlank]
  have hsplit : splitKey [key] = some ([], key) := rfl
  simp [statement, elementHeader, hread, mark, hsplit]

/-! ## One array of tables -/

variable {key : String} {t : Table} {tables : List Table}

/-- What a header and the lines below it say. -/
def elementSaid (key : String) (t : Table) : List Statement :=
  .element [] key :: t.map fun e => .pair [] e.1 e.2

/-- A table of values as it grows. -/
def nodesOf (t : Table) : Entries := t.map fun e => (e.1, .value e.2)

/-- A document of one array of tables as it grows. -/
def arrayGrown (key : String) (tables : List Table) : Entries :=
  if tables.isEmpty then [] else [(key, .tables (tables.map nodesOf))]

/-- A document of one array of tables. -/
def arrayDocument (key : String) (tables : List Table) : Table :=
  if tables.isEmpty then [] else [(key, .array (tables.map .table))]

theorem lookup_arrayDocument :
    (arrayDocument key tables).lookup key =
      if tables.isEmpty then none else some (.array (tables.map .table)) := by
  rw [arrayDocument]
  split_ifs
  · rfl
  · exact Table.lookup_cons_self

theorem lookup_arrayDocument_of_ne {k : String} (h : k ≠ key) :
    (arrayDocument key tables).lookup k = none := by
  rw [arrayDocument]
  split_ifs
  · rfl
  · rw [Table.lookup_cons_of_ne h, List.lookup_nil]

theorem keys_nodesOf (t : Table) : (nodesOf t).map Prod.fst = t.map Prod.fst := by
  rw [nodesOf, List.map_map]
  rfl

/-- A pair goes to the last table of the array. -/
theorem extend_pair {items : List Entries} {k : String} {v : Value} (h : k ∉ t.map Prod.fst) :
    extend [key] [(key, .tables (items ++ [nodesOf t]))] (.pair [] k v) =
      some ([key], [(key, .tables (items ++ [nodesOf (t ++ [(k, v)])]))]) := by
  have hassign : Entries.assign [] k v (nodesOf t) = some (nodesOf (t ++ [(k, v)])) := by
    rw [← keys_nodesOf] at h
    rw [Entries.assign, Table.lookup_eq_none_iff.2 h, nodesOf, nodesOf, List.map_append]
    rfl
  simp [extend, Entries.descend, hassign, Entries.set]

theorem grow?_pairs {before : Table} {items : List Entries} {more : List Statement}
    (hkeys : ((before ++ t).map Prod.fst).Nodup) :
    grow? [key] [(key, .tables (items ++ [nodesOf before]))]
        (t.map (fun e => .pair [] e.1 e.2) ++ more) =
      grow? [key] [(key, .tables (items ++ [nodesOf (before ++ t)]))] more := by
  induction t generalizing before with
  | nil => rw [List.map_nil, List.nil_append, List.append_nil]
  | cons e t ih =>
    have hnew : e.1 ∉ before.map Prod.fst := by
      rw [List.map_append, List.map_cons] at hkeys
      exact fun hmem => (List.nodup_append.1 hkeys).2.2 e.1 hmem e.1 List.mem_cons_self rfl
    -- The rest of the lines meets a table that has this entry already.
    have hsplit : before ++ e :: t = before ++ [e] ++ t := by
      rw [List.append_assoc, List.singleton_append]
    rw [hsplit] at hkeys ⊢
    rw [List.map_cons, List.cons_append, grow?, extend_pair hnew, Option.bind_some]
    exact ih hkeys

/-- A header and the lines below it add one table to the array. -/
theorem grow?_element {current : List String} {more : List Statement}
    (hkeys : (t.map Prod.fst).Nodup) :
    grow? current (arrayGrown key tables) (elementSaid key t ++ more) =
      grow? [key] (arrayGrown key (tables ++ [t])) more := by
  have hopen : extend current (arrayGrown key tables) (.element [] key) =
      some ([key], [(key, .tables (tables.map nodesOf ++ [nodesOf []]))]) := by
    cases tables with
    | nil => rfl
    | cons first tables => simp [arrayGrown, extend, Entries.descend, Entries.openElement,
        Entries.set, nodesOf]
  have hgrown : arrayGrown key (tables ++ [t]) =
      [(key, .tables (tables.map nodesOf ++ [nodesOf t]))] := by
    simp [arrayGrown]
  rw [elementSaid, List.cons_append, grow?, hopen, Option.bind_some, hgrown]
  exact grow?_pairs hkeys

theorem grow?_elements (before : List Table) {current : List String}
    (hkeys : ∀ t ∈ tables, (t.map Prod.fst).Nodup) :
    grow? current (arrayGrown key before) (tables.flatMap (elementSaid key)) =
      some (arrayGrown key (before ++ tables)) := by
  induction tables generalizing before current with
  | nil => rw [List.flatMap_nil, grow?, List.append_nil]
  | cons t tables ih =>
    obtain ⟨hfirst, hrest⟩ := List.forall_mem_cons.1 hkeys
    rw [List.flatMap_cons, grow?_element hfirst, ih _ hrest, List.append_assoc,
      List.singleton_append]

theorem entriesValue_nodesOf (t : Table) : Node.entriesValue (nodesOf t) = t := by
  induction t with
  | nil => rfl
  | cons e t ih =>
    rw [nodesOf] at ih
    rw [nodesOf, List.map_cons, Node.entriesValue, Node.toValue, ih]

theorem itemsValue_nodesOf (tables : List Table) :
    Node.itemsValue (tables.map nodesOf) = tables.map .table := by
  induction tables with
  | nil => rfl
  | cons t tables ih =>
    rw [List.map_cons, Node.itemsValue, entriesValue_nodesOf, ih, List.map_cons]

theorem entriesValue_arrayGrown (key : String) (tables : List Table) :
    Node.entriesValue (arrayGrown key tables) = arrayDocument key tables := by
  cases tables with
  | nil => rfl
  | cons t tables =>
    simp only [arrayGrown, arrayDocument, List.isEmpty_cons, Bool.false_eq_true, if_false,
      Node.entriesValue, Node.toValue, itemsValue_nodesOf]

/-- Lines that say one array of tables write the document that holds it. -/
theorem parse?_lines {text : String} {ls : List (List Char)} {said : List (List Statement)}
    (htext : text.toList = unlines ls) (hmark : ∀ c ∈ text.toList.head?, c ≠ '\uFEFF')
    (hls : List.Forall₂ ReadsAs ls said)
    (hsaid : said.flatten = tables.flatMap (elementSaid key))
    (hkeys : ∀ t ∈ tables, (t.map Prod.fst).Nodup) :
    parse? text = some (arrayDocument key tables) := by
  have hstatements : statements? text.toList = some (tables.flatMap (elementSaid key)) := by
    have hread : statements (text.toList.length + 1) text.toList =
        some (tables.flatMap (elementSaid key)) := by
      have hfuel := length_le_unlines ls
      rw [htext, statements_lines hls (by omega), hsaid]
    rw [← hread]
    cases hchars : text.toList with
    | nil => rfl
    | cons c w =>
      rw [hchars] at hmark
      have hc : c ≠ '\uFEFF' := hmark c rfl
      simp [statements?, hc]
  have hgrow : grow? [] [] (tables.flatMap (elementSaid key)) = some (arrayGrown key tables) :=
    grow?_elements [] hkeys
  rw [parse?, hstatements, Option.bind_eq_bind, Option.bind_some, hgrow, Option.bind_eq_bind,
    Option.bind_some, entriesValue_arrayGrown]
  rfl

end Breaker.Toml
