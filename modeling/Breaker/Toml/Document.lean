import Breaker.Toml.Number
import Breaker.Toml.Text
import Breaker.Toml.Tree

/-!
# TOML documents

A document is a list of lines: blank ones, headers, and keys with values.
`Toml.statements?` reads the lines, `Toml.grow?` makes one table of them, and
`Toml.parse?` does both.  Arrays and inline tables may be nested at most
`nestingLimit - 1` deep, and a key has fewer than `nestingLimit` parts.
-/

namespace Breaker.Toml

/-- The bound on nested values and on the parts of a key. -/
def nestingLimit : Nat := 80

/-! ## Keys -/

/-- May the character stand in a key without quotes? -/
def isBareChar (c : Char) : Bool :=
  ('a' ≤ c && c ≤ 'z') || ('A' ≤ c && c ≤ 'Z') || isDigit c || c == '-' || c == '_'

/-- One part of a key, with blanks around it. -/
def keyPart : Reader String := fun cs =>
  let cs := skipBlanks cs
  match cs with
  | [] => none
  | c :: _ =>
    if c = '"' ∨ c = '\'' then
      (quotedLine cs).map fun (s, rest) => (String.ofList s, skipBlanks rest)
    else if isBareChar c then
      some (String.ofList (cs.takeWhile isBareChar), skipBlanks (cs.dropWhile isBareChar))
    else none

/-- The parts of a key with points between them. -/
def keyParts : Nat → Reader (List String)
  | 0, _ => none
  | fuel + 1, cs =>
    (keyPart cs).bind fun (part, rest) =>
      match rest with
      | '.' :: rest => (keyParts fuel rest).map fun (parts, rest) => (part :: parts, rest)
      | rest => some ([part], rest)

/-- A key: all its parts. -/
def key : Reader (List String) := fun cs =>
  (keyParts (cs.length + 1) cs).bind fun (parts, rest) =>
    if parts.length < nestingLimit then some (parts, rest) else none

/-! ## Values -/

/-- The items of an array, from its opening bracket or a comma on; `item` reads
one of them. -/
def arrayItems (item : Reader Value) : Nat → Reader (List Value)
  | 0, _ => none
  | fuel + 1, cs => do
    let cs ← skipLines cs.length cs
    match cs with
    | ']' :: rest => pure ([], rest)
    | cs =>
      let (v, cs) ← item cs
      match ← skipLines cs.length cs with
      | ',' :: rest =>
        let (items, rest) ← arrayItems item fuel rest
        pure (v :: items, rest)
      | ']' :: rest => pure ([v], rest)
      | _ => none

/-- Splits a key into the path to its table and its last part. -/
def splitKey (parts : List String) : Option (List String × String) :=
  parts.getLast?.map fun last => (parts.dropLast, last)

/-- The pairs of an inline table, from its opening brace or a comma on, added to
the entries so far. -/
def inlinePairs (item : Reader Value) : Nat → Entries → Reader Entries
  | 0, _, _ => none
  | fuel + 1, entries, cs => do
    let (parts, cs) ← key cs
    let cs ← mark '=' cs
    let (v, cs) ← item (skipBlanks cs)
    let (path, last) ← splitKey parts
    let entries ← entries.assign path last v
    match skipBlanks cs with
    | ',' :: rest => inlinePairs item fuel entries rest
    | '\x7d' :: rest => pure (entries, rest)
    | _ => none

/-- An inline table after its opening brace. -/
def inlineTable (item : Reader Value) : Reader Value := fun cs =>
  match skipBlanks cs with
  | '\x7d' :: rest => some (.table [], rest)
  | cs =>
    (inlinePairs item (cs.length + 1) [] cs).map fun (entries, rest) =>
      (.table (Node.entriesValue entries), rest)

/-- A value that is neither an array nor an inline table. -/
def scalar : Reader Value := fun cs =>
  match cs with
  | '"' :: _ => (quotedText cs).map fun (s, rest) => (.text (String.ofList s), rest)
  | '\'' :: _ => (quotedText cs).map fun (s, rest) => (.text (String.ofList s), rest)
  | 't' :: 'r' :: 'u' :: 'e' :: rest => some (.boolean true, rest)
  | 'f' :: 'a' :: 'l' :: 's' :: 'e' :: rest => some (.boolean false, rest)
  | cs => (dateTime cs).orElse fun _ => number cs

/-- A value, with at most `depth` arrays and inline tables around one
another. -/
def value : Nat → Reader Value
  | 0, cs =>
    match cs with
    | '[' :: _ => none
    | '\x7b' :: _ => none
    | cs => scalar cs
  | depth + 1, cs =>
    match cs with
    | '[' :: rest =>
      (arrayItems (value depth) (rest.length + 1) rest).map fun (items, rest) =>
        (.array items, rest)
    | '\x7b' :: rest => inlineTable (value depth) rest
    | cs => scalar cs

/-! ## Lines -/

/-- A line that says something. -/
inductive Statement where
  /-- `[path.last]` -/
  | table (path : List String) (last : String)
  /-- `[[path.last]]` -/
  | element (path : List String) (last : String)
  /-- `path.last = v` -/
  | pair (path : List String) (last : String) (v : Value)

/-- A header for a table, after its opening bracket. -/
def tableHeader : Reader Statement := fun cs => do
  let (parts, cs) ← key cs
  let cs ← mark ']' cs
  let (path, last) ← splitKey parts
  pure (.table path last, cs)

/-- A header for an element of an array of tables, after its opening
brackets. -/
def elementHeader : Reader Statement := fun cs => do
  let (parts, cs) ← key cs
  let cs ← mark ']' cs
  let cs ← mark ']' cs
  let (path, last) ← splitKey parts
  pure (.element path last, cs)

/-- A key with its value. -/
def pair : Reader Statement := fun cs => do
  let (parts, cs) ← key cs
  let cs ← mark '=' cs
  let (v, cs) ← value (nestingLimit - 1) (skipBlanks cs)
  let (path, last) ← splitKey parts
  pure (.pair path last v, cs)

/-- A line that says something, without its end. -/
def statement : Reader Statement := fun cs =>
  match cs with
  | '[' :: '[' :: rest => elementHeader rest
  | '[' :: rest => tableHeader rest
  | cs => pair cs

/-- The lines of a text that say something. -/
def statements : Nat → List Char → Option (List Statement)
  | 0, cs => if cs.isEmpty then some [] else none
  | fuel + 1, cs =>
    match skipBlanks cs with
    | [] => some []
    | c :: rest =>
      if c = '#' ∨ c = '\n' ∨ c = '\r' then
        (finishLine? (c :: rest)).bind (statements fuel)
      else do
        let (s, rest) ← statement (c :: rest)
        let rest ← finishLine? rest
        let more ← statements fuel rest
        pure (s :: more)

/-- The lines of a document that say something; a byte order mark at its start
says nothing. -/
def statements? (text : List Char) : Option (List Statement) :=
  let text := match text with
    | '\uFEFF' :: rest => rest
    | text => text
  statements (text.length + 1) text

/-- Adds a line to the document; `current` is the table that the last header
opened. -/
def extend (current : List String) (root : Entries) : Statement → Option (List String × Entries)
  | .table path last =>
    (root.descend (·.openTable last) path).map fun root => (path ++ [last], root)
  | .element path last =>
    (root.descend (·.openElement last) path).map fun root => (path ++ [last], root)
  | .pair path last v =>
    (root.descend (·.assign path last v) current).map fun root => (current, root)

/-- The table that the lines make together. -/
def grow? : List String → Entries → List Statement → Option Entries
  | _, root, [] => some root
  | current, root, s :: rest => (extend current root s).bind fun (current, root) => grow? current root rest

/-- The entries of the table that a text writes, if the text is a document. -/
def parse? (text : String) : Option (List (String × Value)) := do
  let lines ← statements? text.toList
  let root ← grow? [] [] lines
  pure (Node.entriesValue root)

end Breaker.Toml
