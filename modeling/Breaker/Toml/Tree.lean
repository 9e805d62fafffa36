import Breaker.Toml.Value

/-!
# Growing a document

A document is brought up piece by piece: headers open tables, and dotted keys
reach into tables that they make on the way.  A `Node` remembers how each table
came about, because that decides whether a later piece may add to it.  Every
operation is `none` when the document says something twice or contradicts
itself.
-/

namespace Breaker.Toml

/-- How a table came about. -/
inductive Origin where
  /-- By a header of its own, or as an element of an array of tables. -/
  | header
  /-- On the way to a table that a header names. -/
  | between
  /-- On the way that a dotted key takes. -/
  | dotted
  deriving DecidableEq, Repr

/-- A part of a growing document. -/
inductive Node where
  | value (v : Value)
  | table (origin : Origin) (entries : List (String × Node))
  /-- An array of tables that grows by headers. -/
  | tables (items : List (List (String × Node)))

/-- The entries of a table that is growing, in the order in which they came
up. -/
abbrev Entries := List (String × Node)

namespace Entries

/-- Puts a node in the place of the one with that key, or at the end. -/
def set (key : String) (node : Node) : Entries → Entries
  | [] => [(key, node)]
  | (k, old) :: rest => if k = key then (k, node) :: rest else (k, old) :: set key node rest

/-- The entries without that key. -/
def remove (key : String) (entries : Entries) : Entries := entries.filter fun e => e.1 != key

/-- Adds `key = v` at the end of a dotted path.  The tables on the path must
not have a header, and the last one must have come about by a dotted key. -/
def assign : List String → String → Value → Entries → Option Entries
  | [], key, v, entries =>
    match entries.lookup key with
    | some _ => none
    | none => some (entries ++ [(key, .value v)])
  | k :: path, key, v, entries =>
    match entries.lookup k with
    | none => (assign path key v []).map fun sub => entries ++ [(k, .table .dotted sub)]
    | some (.table .header _) => none
    | some (.table origin sub) =>
      if path = [] ∧ origin ≠ .dotted then none
      else (assign path key v sub).map fun sub => entries.set k (.table origin sub)
    | some (.tables items) =>
      match path, items.reverse with
      | _ :: _, last :: before =>
        (assign path key v last).map fun last => entries.set k (.tables (last :: before).reverse)
      | _, _ => none
    | some (.value _) => none

/-- Changes the table that a path of headers leads to: through the last element
of an array of tables, and through tables made on the way where there are
none. -/
def descend (change : Entries → Option Entries) : List String → Entries → Option Entries
  | [], entries => change entries
  | k :: path, entries =>
    match entries.lookup k with
    | none => (descend change path []).map fun sub => entries ++ [(k, .table .between sub)]
    | some (.table origin sub) =>
      (descend change path sub).map fun sub => entries.set k (.table origin sub)
    | some (.tables items) =>
      match items.reverse with
      | [] => none
      | last :: before =>
        (descend change path last).map fun last =>
          entries.set k (.tables (last :: before).reverse)
    | some (.value _) => none

/-- Opens a table by a header.  One that was made on the way to another table
gets its header now, and moves to the end. -/
def openTable (key : String) (entries : Entries) : Option Entries :=
  match entries.lookup key with
  | none => some (entries ++ [(key, .table .header [])])
  | some (.table .between sub) => some (entries.remove key ++ [(key, .table .header sub)])
  | some _ => none

/-- Opens the next element of an array of tables by a header. -/
def openElement (key : String) (entries : Entries) : Option Entries :=
  match entries.lookup key with
  | none => some (entries ++ [(key, .tables [[]])])
  | some (.tables items) => some (entries.set key (.tables (items ++ [[]])))
  | some _ => none

end Entries

mutual

/-- What a grown node says. -/
def Node.toValue : Node → Value
  | .value v => v
  | .table _ entries => .table (Node.entriesValue entries)
  | .tables items => .array (Node.itemsValue items)

/-- What grown entries say. -/
def Node.entriesValue : List (String × Node) → List (String × Value)
  | [] => []
  | (key, node) :: rest => (key, node.toValue) :: Node.entriesValue rest

/-- What the elements of a grown array say. -/
def Node.itemsValue : List (List (String × Node)) → List Value
  | [] => []
  | entries :: rest => .table (Node.entriesValue entries) :: Node.itemsValue rest

end

end Breaker.Toml
