import Breaker.Proofs.Tables
import Breaker.Toml.Document

/-!
# Every document that is read is proper

Whatever a text writes, the document that is read from it keeps what the standard
promises: no key stands twice in a table, and whole numbers have 64 bits.

* `value_proper` is about the values behind keys, by the depth of their nesting.
* `Entries.Proper` is the invariant of a document as it grows.  Every operation
  on entries keeps it, so `grow?_proper` holds for any number of lines.
* `parse?_proper` puts the two together.
-/

namespace Breaker.Toml

/-! ## Entries as they grow -/

/-- A part of a growing document without a key that stands twice. -/
inductive Node.Proper : Node → Prop
  | value {v : Value} (h : v.Proper) : Proper (.value v)
  | table {origin : Origin} {entries : Entries} (hkeys : (entries.map Prod.fst).Nodup)
      (hnodes : ∀ e ∈ entries, Proper e.2) : Proper (.table origin entries)
  | tables {items : List Entries} (hkeys : ∀ entries ∈ items, (entries.map Prod.fst).Nodup)
      (hnodes : ∀ entries ∈ items, ∀ e ∈ entries, Proper e.2) : Proper (.tables items)

/-- Entries without a key that stands twice, down to the last of them. -/
structure Entries.Proper (entries : Entries) : Prop where
  keys : (entries.map Prod.fst).Nodup
  nodes : ∀ e ∈ entries, e.2.Proper

variable {entries entries' sub : Entries} {items : List Entries} {key : String} {node : Node}
variable {origin : Origin} {v : Value} {path : List String}

theorem Node.proper_table_iff : (Node.table origin entries).Proper ↔ entries.Proper := by
  constructor
  · intro h
    cases h with
    | table hkeys hnodes => exact ⟨hkeys, hnodes⟩
  · exact fun h => .table h.keys h.nodes

theorem Node.proper_tables_iff :
    (Node.tables items).Proper ↔ ∀ entries ∈ items, Entries.Proper entries := by
  constructor
  · intro h
    cases h with
    | tables hkeys hnodes => exact fun entries he => ⟨hkeys entries he, hnodes entries he⟩
  · exact fun h => .tables (fun entries he => (h entries he).keys)
      fun entries he => (h entries he).nodes

namespace Entries

theorem proper_nil : Entries.Proper [] := ⟨.nil, nofun⟩

theorem Proper.node_of_lookup (h : entries.Proper) (hlookup : entries.lookup key = some node) :
    node.Proper := h.nodes _ (Table.mem_of_lookup hlookup)

/-- A new key goes to the end. -/
theorem Proper.snoc (h : entries.Proper) (hnew : key ∉ entries.map Prod.fst)
    (hnode : node.Proper) : Entries.Proper (entries ++ [(key, node)]) := by
  constructor
  · rw [List.map_append, List.map_singleton, List.nodup_append]
    refine ⟨h.keys, List.nodup_singleton key, fun k hk other hother => ?_⟩
    obtain rfl := List.mem_singleton.1 hother
    rintro rfl
    exact hnew hk
  · intro e he
    rcases List.mem_append.1 he with he | he
    · exact h.nodes e he
    · obtain rfl := List.mem_singleton.1 he
      exact hnode

theorem mem_keys_set {k : String} (hmem : k ∈ (entries.set key node).map Prod.fst) :
    k = key ∨ k ∈ entries.map Prod.fst := by
  induction entries with
  | nil => exact .inl (List.mem_singleton.1 hmem)
  | cons e entries ih =>
    obtain ⟨other, old⟩ := e
    rw [set] at hmem
    split_ifs at hmem with hkey
    · exact .inr hmem
    · rcases List.mem_cons.1 hmem with rfl | hmem
      · exact .inr List.mem_cons_self
      · exact (ih hmem).imp_right (List.mem_cons_of_mem _)

/-- A node takes the place of another. -/
theorem Proper.set (h : entries.Proper) (key : String) (hnode : node.Proper) :
    (entries.set key node).Proper := by
  induction entries with
  | nil => exact ⟨List.nodup_singleton key, List.forall_mem_singleton.2 hnode⟩
  | cons e entries ih =>
    obtain ⟨other, old⟩ := e
    obtain ⟨hnew, hkeys⟩ := List.nodup_cons.1 h.keys
    obtain ⟨hold, hnodes⟩ := List.forall_mem_cons.1 h.nodes
    rw [Entries.set]
    split_ifs with hkey
    · exact ⟨h.keys, List.forall_mem_cons.2 ⟨hnode, hnodes⟩⟩
    · have hrest := ih ⟨hkeys, hnodes⟩
      refine ⟨List.nodup_cons.2 ⟨fun hmem => ?_, hrest.keys⟩,
        List.forall_mem_cons.2 ⟨hold, hrest.nodes⟩⟩
      exact (mem_keys_set hmem).elim hkey hnew

theorem Proper.remove (h : entries.Proper) (key : String) : (entries.remove key).Proper :=
  ⟨h.keys.sublist (List.filter_sublist.map Prod.fst),
    fun e he => h.nodes e (List.mem_of_mem_filter he)⟩

theorem notMem_keys_remove : key ∉ (entries.remove key).map Prod.fst := by
  intro hmem
  obtain ⟨e, he, rfl⟩ := List.mem_map.1 hmem
  have hne := (List.mem_filter.1 he).2
  simp at hne

/-- Another last table of an array. -/
theorem proper_reverse {last last' : Entries} {before : List Entries}
    (h : (Node.tables items).Proper) (hitems : items.reverse = last :: before)
    (hlast : last.Proper → last'.Proper) : (Node.tables (last' :: before).reverse).Proper := by
  rw [Node.proper_tables_iff] at h ⊢
  have hall : ∀ entries ∈ last :: before, Entries.Proper entries := by
    intro entries he
    rw [← hitems, List.mem_reverse] at he
    exact h entries he
  obtain ⟨hfirst, hrest⟩ := List.forall_mem_cons.1 hall
  intro entries he
  rw [List.mem_reverse] at he
  exact List.forall_mem_cons.2 ⟨hlast hfirst, hrest⟩ entries he

/-- A value that is added takes no key twice. -/
theorem Proper.assign (h : entries.Proper) (hv : v.Proper)
    (hassign : entries.assign path key v = some entries') : entries'.Proper := by
  induction path generalizing entries entries' with
  | nil =>
    cases hlookup : entries.lookup key with
    | none =>
      simp only [Entries.assign, hlookup, Option.some.injEq] at hassign
      subst hassign
      exact h.snoc (Table.lookup_eq_none_iff.1 hlookup) (.value hv)
    | some old => simp [Entries.assign, hlookup] at hassign
  | cons k path ih =>
    cases hlookup : entries.lookup k with
    | none =>
      simp only [Entries.assign, hlookup, Option.map_eq_some_iff] at hassign
      obtain ⟨sub, hsub, rfl⟩ := hassign
      exact h.snoc (Table.lookup_eq_none_iff.1 hlookup)
        (Node.proper_table_iff.2 (ih proper_nil hsub))
    | some old =>
      have hold := h.node_of_lookup hlookup
      cases old with
      | value _ => simp [Entries.assign, hlookup] at hassign
      | table origin sub =>
        obtain ⟨sub', hsub, rfl⟩ : ∃ sub', Entries.assign path key v sub = some sub' ∧
            entries.set k (.table origin sub') = entries' := by
          -- A table with a header is closed to dotted keys, the others may be open.
          cases origin with
          | header => simp [Entries.assign, hlookup] at hassign
          | between =>
            simp only [Entries.assign, hlookup] at hassign
            split_ifs at hassign
            simpa using hassign
          | dotted => simpa [Entries.assign, hlookup] using hassign
        exact h.set k (Node.proper_table_iff.2 (ih (Node.proper_table_iff.1 hold) hsub))
      | tables items =>
        cases path with
        | nil => simp [Entries.assign, hlookup] at hassign
        | cons next path =>
          cases hitems : items.reverse with
          | nil => simp [Entries.assign, hlookup, hitems] at hassign
          | cons last before =>
            obtain ⟨last', hlast, rfl⟩ : ∃ last',
                Entries.assign (next :: path) key v last = some last' ∧
                  entries.set k (.tables (last' :: before).reverse) = entries' := by
              simpa [Entries.assign, hlookup, hitems] using hassign
            exact h.set k (proper_reverse hold hitems fun hproper => ih hproper hlast)

/-- A change at the end of a path of headers takes no key twice if it does so
nowhere. -/
theorem Proper.descend {change : Entries → Option Entries} (h : entries.Proper)
    (hchange : ∀ {sub sub' : Entries}, sub.Proper → change sub = some sub' → sub'.Proper)
    (hdescend : entries.descend change path = some entries') : entries'.Proper := by
  induction path generalizing entries entries' with
  | nil => exact hchange h hdescend
  | cons k path ih =>
    cases hlookup : entries.lookup k with
    | none =>
      simp only [Entries.descend, hlookup, Option.map_eq_some_iff] at hdescend
      obtain ⟨sub, hsub, rfl⟩ := hdescend
      exact h.snoc (Table.lookup_eq_none_iff.1 hlookup)
        (Node.proper_table_iff.2 (ih proper_nil hsub))
    | some old =>
      have hold := h.node_of_lookup hlookup
      cases old with
      | value _ => simp [Entries.descend, hlookup] at hdescend
      | table origin sub =>
        simp only [Entries.descend, hlookup, Option.map_eq_some_iff] at hdescend
        obtain ⟨sub', hsub, rfl⟩ := hdescend
        exact h.set k (Node.proper_table_iff.2 (ih (Node.proper_table_iff.1 hold) hsub))
      | tables items =>
        cases hitems : items.reverse with
        | nil => simp [Entries.descend, hlookup, hitems] at hdescend
        | cons last before =>
          simp only [Entries.descend, hlookup, hitems, Option.map_eq_some_iff] at hdescend
          obtain ⟨last', hlast, rfl⟩ := hdescend
          exact h.set k (proper_reverse hold hitems fun hproper => ih hproper hlast)

theorem Proper.openTable (h : entries.Proper) (hopen : entries.openTable key = some entries') :
    entries'.Proper := by
  cases hlookup : entries.lookup key with
  | none =>
    simp only [Entries.openTable, hlookup, Option.some.injEq] at hopen
    subst hopen
    exact h.snoc (Table.lookup_eq_none_iff.1 hlookup) (Node.proper_table_iff.2 proper_nil)
  | some old =>
    have hold := h.node_of_lookup hlookup
    cases old with
    | value _ => simp [Entries.openTable, hlookup] at hopen
    | tables items => simp [Entries.openTable, hlookup] at hopen
    | table origin sub =>
      cases origin with
      | header => simp [Entries.openTable, hlookup] at hopen
      | dotted => simp [Entries.openTable, hlookup] at hopen
      | between =>
        simp only [Entries.openTable, hlookup, Option.some.injEq] at hopen
        subst hopen
        exact (h.remove key).snoc notMem_keys_remove
          (Node.proper_table_iff.2 (Node.proper_table_iff.1 hold))

theorem Proper.openElement (h : entries.Proper)
    (hopen : entries.openElement key = some entries') : entries'.Proper := by
  cases hlookup : entries.lookup key with
  | none =>
    simp only [Entries.openElement, hlookup, Option.some.injEq] at hopen
    subst hopen
    refine h.snoc (Table.lookup_eq_none_iff.1 hlookup) (Node.proper_tables_iff.2 ?_)
    exact List.forall_mem_singleton.2 proper_nil
  | some old =>
    have hold := h.node_of_lookup hlookup
    cases old with
    | value _ => simp [Entries.openElement, hlookup] at hopen
    | table origin sub => simp [Entries.openElement, hlookup] at hopen
    | tables items =>
      simp only [Entries.openElement, hlookup, Option.some.injEq] at hopen
      subst hopen
      refine h.set key (Node.proper_tables_iff.2 fun entries he => ?_)
      rcases List.mem_append.1 he with he | he
      · exact Node.proper_tables_iff.1 hold entries he
      · obtain rfl := List.mem_singleton.1 he
        exact proper_nil

end Entries

/-! ## What grown entries say -/

theorem entriesValue_eq_map (entries : Entries) :
    Node.entriesValue entries = entries.map fun e => (e.1, e.2.toValue) := by
  induction entries with
  | nil => rfl
  | cons e entries ih => rw [Node.entriesValue, ih, List.map_cons]

theorem itemsValue_eq_map (items : List Entries) :
    Node.itemsValue items = items.map fun entries => .table (Node.entriesValue entries) := by
  induction items with
  | nil => rfl
  | cons entries items ih => rw [Node.itemsValue, ih, List.map_cons]

theorem keys_entriesValue (entries : Entries) :
    (Node.entriesValue entries).map Prod.fst = entries.map Prod.fst := by
  rw [entriesValue_eq_map, List.map_map]
  rfl

theorem Node.Proper.toValue (h : node.Proper) : node.toValue.Proper := by
  have htable : ∀ {entries : Entries}, (entries.map Prod.fst).Nodup →
      (∀ e ∈ entries, e.2.toValue.Proper) →
        (Value.table (Node.entriesValue entries)).Proper := by
    intro entries hkeys hnodes
    refine .table (by rwa [keys_entriesValue]) ?_
    rw [entriesValue_eq_map, List.forall_mem_map]
    exact hnodes
  induction h with
  | value h => exact h
  | table hkeys _ ih => exact htable hkeys ih
  | tables hkeys _ ih =>
    rw [Node.toValue]
    refine .array ?_
    rw [itemsValue_eq_map, List.forall_mem_map]
    exact fun entries he => htable (hkeys entries he) (ih entries he)

theorem Entries.Proper.entriesValue (h : entries.Proper) :
    (Value.table (Node.entriesValue entries)).Proper := by
  have hnode : (Node.table .header entries).Proper := Node.proper_table_iff.2 h
  exact hnode.toValue

/-! ## Values that are read -/

variable {cs rest : List Char}

theorem integer?_proper {n : Int} (h : integer? n = some v) : v.Proper := by
  rw [integer?, Option.ite_none_right_eq_some, Option.some.injEq] at h
  obtain ⟨⟨hlow, hhigh⟩, rfl⟩ := h
  exact .integer hlow hhigh

theorem float?_proper {negative : Bool} {digits : List Char} {exponent : Int}
    (h : float? negative digits exponent = some v) : v.Proper := by
  simp only [float?, Option.ite_none_left_eq_some, Option.some.injEq] at h
  obtain ⟨-, rfl⟩ := h
  exact .float _

theorem decimalNumber_proper (h : decimalNumber cs = some (v, rest)) : v.Proper := by
  simp only [decimalNumber, Option.bind_eq_bind, Option.bind_eq_some_iff] at h
  obtain ⟨whole, -, fraction, -, exponent, -, h⟩ := h
  split at h
  · simp only [Option.bind_eq_some_iff, Option.pure_def, Option.some.injEq, Prod.mk.injEq] at h
    obtain ⟨n, hn, rfl, -⟩ := h
    exact integer?_proper hn
  · simp only [Option.bind_eq_some_iff, Option.pure_def, Option.some.injEq, Prod.mk.injEq] at h
    obtain ⟨x, hx, rfl, -⟩ := h
    exact float?_proper hx

theorem radixNumber_proper {base : Nat} {isOne : Char → Bool}
    (h : radixNumber base isOne cs = some (v, rest)) : v.Proper := by
  simp only [radixNumber, Option.bind_eq_bind, Option.bind_eq_some_iff, Option.pure_def,
    Option.some.injEq, Prod.mk.injEq] at h
  obtain ⟨digits, -, n, hn, rfl, -⟩ := h
  exact integer?_proper hn

theorem number_proper (h : number cs = some (v, rest)) : v.Proper := by
  rw [number.eq_def] at h
  split at h
  · cases h
    exact .float _
  · cases h
    exact .float _
  · split at h
    · exact radixNumber_proper h
    · exact radixNumber_proper h
    · exact radixNumber_proper h
    · exact decimalNumber_proper h

theorem dateTime_proper (h : dateTime cs = some (v, rest)) : v.Proper := by
  rw [dateTime.eq_def] at h
  cases hdate : skipDate cs with
  | none =>
    rw [hdate] at h
    obtain ⟨r, -, hr⟩ := Option.map_eq_some_iff.1 h
    cases hr
    exact .dateTime
  | some after =>
    rw [hdate] at h
    cases after with
    | nil =>
      cases h
      exact .dateTime
    | cons c after =>
      dsimp only at h
      split_ifs at h
      · split at h
        all_goals
          cases h
          exact .dateTime
      · cases h
        exact .dateTime

theorem scalar_proper (h : scalar cs = some (v, rest)) : v.Proper := by
  rw [scalar.eq_def] at h
  split at h
  · obtain ⟨r, -, hr⟩ := Option.map_eq_some_iff.1 h
    cases hr
    exact .text _
  · obtain ⟨r, -, hr⟩ := Option.map_eq_some_iff.1 h
    cases hr
    exact .text _
  · cases h
    exact .boolean true
  · cases h
    exact .boolean false
  · cases hdate : dateTime cs with
    | none =>
      rw [hdate] at h
      exact number_proper h
    | some r =>
      rw [hdate] at h
      exact dateTime_proper (hdate.trans h)

/-- Items are proper when each of them is. -/
theorem arrayItems_proper {item : Reader Value}
    (hitem : ∀ {cs v rest}, item cs = some (v, rest) → v.Proper) {fuel : Nat} {vs : List Value}
    (h : arrayItems item fuel cs = some (vs, rest)) : ∀ v ∈ vs, v.Proper := by
  induction fuel generalizing cs vs rest with
  | zero => cases h
  | succ fuel ih =>
    rw [arrayItems] at h
    simp only [Option.bind_eq_bind, Option.bind_eq_some_iff] at h
    obtain ⟨start, -, h⟩ := h
    split at h
    · cases h
      nofun
    · simp only [Option.bind_eq_some_iff] at h
      obtain ⟨⟨v, afterItem⟩, hv, next, -, h⟩ := h
      split at h
      · simp only [Option.bind_eq_some_iff] at h
        obtain ⟨⟨more, afterMore⟩, hmore, h⟩ := h
        cases h
        exact List.forall_mem_cons.2 ⟨hitem hv, ih hmore⟩
      · cases h
        exact List.forall_mem_singleton.2 (hitem hv)
      · cases h

theorem inlinePairs_proper {item : Reader Value}
    (hitem : ∀ {cs v rest}, item cs = some (v, rest) → v.Proper) {fuel : Nat}
    (hentries : entries.Proper) (h : inlinePairs item fuel entries cs = some (entries', rest)) :
    entries'.Proper := by
  induction fuel generalizing cs entries rest with
  | zero => cases h
  | succ fuel ih =>
    rw [inlinePairs] at h
    simp only [Option.bind_eq_bind, Option.bind_eq_some_iff] at h
    obtain ⟨⟨parts, afterKey⟩, -, afterMark, -, ⟨v, afterItem⟩, hv, ⟨path, last⟩, -, next,
      hassign, h⟩ := h
    have hnext : next.Proper := hentries.assign (hitem hv) hassign
    split at h
    · exact ih hnext h
    · cases h
      exact hnext
    · cases h

theorem inlineTable_proper {item : Reader Value}
    (hitem : ∀ {cs v rest}, item cs = some (v, rest) → v.Proper)
    (h : inlineTable item cs = some (v, rest)) : v.Proper := by
  rw [inlineTable.eq_def] at h
  split at h
  · cases h
    exact .table .nil nofun
  · obtain ⟨⟨entries, afterPairs⟩, hpairs, hr⟩ := Option.map_eq_some_iff.1 h
    cases hr
    exact (inlinePairs_proper hitem Entries.proper_nil hpairs).entriesValue

/-- By induction on how deep arrays and inline tables may be nested. -/
theorem value_proper {depth : Nat} (h : value depth cs = some (v, rest)) : v.Proper := by
  induction depth generalizing cs v rest with
  | zero =>
    rw [value.eq_def] at h
    dsimp only at h
    split at h
    · cases h
    · cases h
    · exact scalar_proper h
  | succ depth ih =>
    rw [value.eq_def] at h
    dsimp only at h
    split at h
    · obtain ⟨⟨items, afterItems⟩, hitems, hr⟩ := Option.map_eq_some_iff.1 h
      cases hr
      exact .array (arrayItems_proper ih hitems)
    · exact inlineTable_proper ih h
    · exact scalar_proper h

/-! ## Documents -/

/-- What a line says is proper when its value is, if it has one. -/
def Statement.Proper : Statement → Prop
  | .pair _ _ v => v.Proper
  | _ => True

theorem statement_proper {s : Statement} (h : statement cs = some (s, rest)) : s.Proper := by
  rw [statement.eq_def] at h
  split at h
  · simp only [elementHeader, Option.bind_eq_bind, Option.bind_eq_some_iff] at h
    obtain ⟨⟨parts, afterKey⟩, -, afterFirst, -, afterSecond, -, ⟨path, last⟩, -, h⟩ := h
    cases h
    trivial
  · simp only [tableHeader, Option.bind_eq_bind, Option.bind_eq_some_iff] at h
    obtain ⟨⟨parts, afterKey⟩, -, afterMark, -, ⟨path, last⟩, -, h⟩ := h
    cases h
    trivial
  · simp only [pair, Option.bind_eq_bind, Option.bind_eq_some_iff] at h
    obtain ⟨⟨parts, afterKey⟩, -, afterMark, -, ⟨v, afterValue⟩, hv, ⟨path, last⟩, -, h⟩ := h
    cases h
    exact value_proper hv

theorem statements_proper {fuel : Nat} {ss : List Statement} (h : statements fuel cs = some ss) :
    ∀ s ∈ ss, s.Proper := by
  induction fuel generalizing cs ss with
  | zero =>
    rw [statements, Option.ite_none_right_eq_some] at h
    obtain ⟨-, h⟩ := h
    cases h
    nofun
  | succ fuel ih =>
    rw [statements] at h
    split at h
    · cases h
      nofun
    · split_ifs at h
      · obtain ⟨next, -, hnext⟩ := Option.bind_eq_some_iff.1 h
        exact ih hnext
      · simp only [Option.bind_eq_bind, Option.bind_eq_some_iff] at h
        obtain ⟨⟨s, afterStatement⟩, hs, next, -, more, hmore, h⟩ := h
        cases h
        exact List.forall_mem_cons.2 ⟨statement_proper hs, ih hmore⟩

theorem extend_proper {current current' : List String} {s : Statement} (h : entries.Proper)
    (hs : s.Proper) (hextend : extend current entries s = some (current', entries')) :
    entries'.Proper := by
  cases s with
  | table path last =>
    obtain ⟨root, hroot, hr⟩ := Option.map_eq_some_iff.1 hextend
    cases hr
    exact h.descend (fun hsub hopen => hsub.openTable hopen) hroot
  | element path last =>
    obtain ⟨root, hroot, hr⟩ := Option.map_eq_some_iff.1 hextend
    cases hr
    exact h.descend (fun hsub hopen => hsub.openElement hopen) hroot
  | pair path last v =>
    obtain ⟨root, hroot, hr⟩ := Option.map_eq_some_iff.1 hextend
    cases hr
    exact h.descend (fun hsub hassign => hsub.assign hs hassign) hroot

theorem grow?_proper {current : List String} {ss : List Statement} (h : entries.Proper)
    (hss : ∀ s ∈ ss, s.Proper) (hgrow : grow? current entries ss = some entries') :
    entries'.Proper := by
  induction ss generalizing current entries with
  | nil =>
    cases hgrow
    exact h
  | cons s ss ih =>
    obtain ⟨hs, hss⟩ := List.forall_mem_cons.1 hss
    obtain ⟨⟨current', root⟩, hextend, hgrow⟩ := Option.bind_eq_some_iff.1 hgrow
    exact ih (extend_proper h hs hextend) hss hgrow

/-- A document that is read is proper. -/
theorem parse?_proper {text : String} {doc : Table} (h : parse? text = some doc) :
    (Value.table doc).Proper := by
  simp only [parse?, statements?, Option.bind_eq_bind, Option.bind_eq_some_iff] at h
  obtain ⟨ss, hss, root, hroot, h⟩ := h
  cases h
  exact (grow?_proper Entries.proper_nil (statements_proper hss) hroot).entriesValue

end Breaker.Toml
