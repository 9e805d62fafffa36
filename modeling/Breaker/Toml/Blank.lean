import Breaker.Toml.Value

/-!
# Blanks, comments and ends of lines

A blank is a space or a tab.  A line ends in a line feed, with or without a
carriage return before it; a carriage return alone is no part of any document.
-/

namespace Breaker.Toml

/-- A space or a tab. -/
def isBlank (c : Char) : Bool := c == ' ' || c == '\t'

/-- The text after its leading blanks. -/
def skipBlanks (cs : List Char) : List Char := cs.dropWhile isBlank

/-- The text after the end of a line. -/
def endOfLine? : List Char → Option (List Char)
  | '\n' :: rest => some rest
  | '\r' :: '\n' :: rest => some rest
  | _ => none

/-- May the character stand in a comment? -/
def isCommentChar (c : Char) : Bool :=
  c == '\t' || (0x20 ≤ c.toNat && c.toNat ≠ 0x7F)

/-- The text after a comment, if one starts here. -/
def skipComment (cs : List Char) : List Char :=
  match cs with
  | '#' :: rest => rest.dropWhile isCommentChar
  | cs => cs

/-- The text after the rest of a line that holds no more than blanks and a
comment; the document may end instead of the line. -/
def finishLine? (cs : List Char) : Option (List Char) :=
  match skipComment (skipBlanks cs) with
  | [] => some []
  | cs => endOfLine? cs

/-- The text after blanks, comments and ends of lines, as they may stand
between the items of an array. -/
def skipLines : Nat → List Char → Option (List Char)
  | 0, cs => some cs
  | fuel + 1, cs =>
    match skipBlanks cs with
    | '#' :: rest => (endOfLine? (rest.dropWhile isCommentChar)).bind (skipLines fuel)
    | '\n' :: rest => skipLines fuel rest
    | '\r' :: rest => (endOfLine? ('\r' :: rest)).bind (skipLines fuel)
    | rest => some rest

end Breaker.Toml
