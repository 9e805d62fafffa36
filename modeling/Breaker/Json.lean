import Breaker.Decimal.Style

/-!
# Reports in JSON

The values that reports are made of, and their text over several lines: two
spaces for each level, and the members of an object in the order of their
names.
-/

namespace Breaker

/-- A value of a report. -/
inductive Json where
  | number (n : Nat)
  | rate (x : Binary64)
  | text (s : String)
  | list (items : List Json)
  | record (members : List (String × Json))

namespace Json

/-- How one character of a text is written. -/
def escapeChar (c : Char) : List Char :=
  match c with
  | '"' => ['\\', '"']
  | '\\' => ['\\', '\\']
  | '\n' => ['\\', 'n']
  | '\r' => ['\\', 'r']
  | '\t' => ['\\', 't']
  | '\x08' => ['\\', 'b']
  | '\x0c' => ['\\', 'f']
  | c =>
    if c.toNat < 0x20 then
      '\\' :: 'u' :: '0' :: '0' :: Nat.digitChar (c.toNat / 16) :: [Nat.digitChar (c.toNat % 16)]
    else [c]

/-- A text between quotes. -/
def quoted (s : String) : String :=
  String.ofList ('"' :: (s.toList.flatMap escapeChar ++ ['"']))

/-- Puts a member where its name belongs. -/
def insertMember (m : String × Json) : List (String × Json) → List (String × Json)
  | [] => [m]
  | n :: rest => if m.1 < n.1 then m :: n :: rest else n :: insertMember m rest

/-- A record with its members in the order of their names. -/
def object (members : List (String × Json)) : Json :=
  .record (members.foldr insertMember [])

/-- A new line at the given depth. -/
def newline (depth : Nat) : String := "\n".pushn ' ' (2 * depth)

mutual

/-- The text of a value that starts at the given depth. -/
def pretty (depth : Nat) : Json → String
  | .number n => toString n
  | .rate x => Decimal.Style.report.write x
  | .text s => quoted s
  | .list [] => "[]"
  | .list items => "[" ++ prettyItems (depth + 1) items ++ newline depth ++ "]"
  | .record [] => "\x7b\x7d"
  | .record members =>
    "\x7b" ++ prettyMembers (depth + 1) members ++ newline depth ++ "\x7d"

/-- The items of a list, each on a line of its own. -/
def prettyItems (depth : Nat) : List Json → String
  | [] => ""
  | [item] => newline depth ++ pretty depth item
  | item :: rest => newline depth ++ pretty depth item ++ "," ++ prettyItems depth rest

/-- The members of a record, each on a line of its own. -/
def prettyMembers (depth : Nat) : List (String × Json) → String
  | [] => ""
  | [(name, value)] => newline depth ++ quoted name ++ ": " ++ pretty depth value
  | (name, value) :: rest =>
    newline depth ++ quoted name ++ ": " ++ pretty depth value ++ "," ++
      prettyMembers depth rest

end

end Json

end Breaker
