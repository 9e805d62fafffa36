import Breaker.Toml.Blank

/-!
# Quoted texts

Four kinds: between double quotes with escapes, between single quotes without,
and both between three quotes over several lines.  `Toml.basic` and the other
readers start after the opening quotes and end after the closing ones.
-/

namespace Breaker.Toml

/-- The value of a hexadecimal digit. -/
def hexDigit? (c : Char) : Option Nat :=
  if '0' ≤ c ∧ c ≤ '9' then some (c.toNat - '0'.toNat)
  else if 'a' ≤ c ∧ c ≤ 'f' then some (c.toNat - 'a'.toNat + 10)
  else if 'A' ≤ c ∧ c ≤ 'F' then some (c.toNat - 'A'.toNat + 10)
  else none

/-- The number that the hexadecimal digits write, after `n`. -/
def hexValue? (n : Nat) : List Char → Option Nat
  | [] => some n
  | c :: cs => (hexDigit? c).bind fun d => hexValue? (16 * n + d) cs

/-- The character with the given code point, surrogates not being characters. -/
def scalar? (n : Nat) : Option Char :=
  if n.isValidChar then some (Char.ofNat n) else none

/-- A character by its code point in `width` hexadecimal digits. -/
def codePoint (width : Nat) : Reader Char := fun cs =>
  if cs.length < width then none
  else (hexValue? 0 (cs.take width)).bind fun n => (scalar? n).map (·, cs.drop width)

/-- What stands after a backslash. -/
def escape : Reader Char
  | 'b' :: rest => some ('\x08', rest)
  | 't' :: rest => some ('\t', rest)
  | 'n' :: rest => some ('\n', rest)
  | 'f' :: rest => some ('\x0c', rest)
  | 'r' :: rest => some ('\r', rest)
  | '"' :: rest => some ('"', rest)
  | '\\' :: rest => some ('\\', rest)
  | 'u' :: rest => codePoint 4 rest
  | 'U' :: rest => codePoint 8 rest
  | _ => none

/-- May the character stand for itself in a quoted text? -/
def isTextChar (c : Char) : Bool := isCommentChar c

/-- A text between double quotes. -/
def basic : Nat → Reader (List Char)
  | 0, _ => none
  | fuel + 1, cs =>
    match cs with
    | '"' :: rest => some ([], rest)
    | '\\' :: rest =>
      (escape rest).bind fun (c, rest) => (basic fuel rest).map fun (s, rest) => (c :: s, rest)
    | c :: rest =>
      if isTextChar c then (basic fuel rest).map fun (s, rest) => (c :: s, rest) else none
    | [] => none

/-- A text between single quotes. -/
def literal (cs : List Char) : Option (List Char × List Char) :=
  let body := cs.takeWhile fun c => isTextChar c && c != '\''
  match cs.dropWhile fun c => isTextChar c && c != '\'' with
  | '\'' :: rest => some (body, rest)
  | _ => none

/-- The text after a first line that is empty. -/
def skipFirstNewline (cs : List Char) : List Char := (endOfLine? cs).getD cs

/-- The end of a text between three quotes: up to five quotes in a row, the
last three of which close it. -/
def closing (quote : Char) (cs : List Char) : Option (List Char × List Char) :=
  let quotes := cs.takeWhile (· == quote)
  if quotes.length < 3 ∨ 5 < quotes.length then none
  else some (List.replicate (quotes.length - 3) quote, cs.dropWhile (· == quote))

/-- After a backslash at the end of a line: the text after all blanks and ends
of lines. -/
def skipContinuation : Nat → List Char → List Char
  | 0, cs => cs
  | fuel + 1, cs =>
    let cs := skipBlanks cs
    match endOfLine? cs with
    | some rest => skipContinuation fuel rest
    | none => cs

/-- A text between three double quotes; ends of lines become line feeds, and a
backslash at the end of a line joins it to the next text. -/
def basicLines : Nat → Reader (List Char)
  | 0, _ => none
  | fuel + 1, cs =>
    match cs with
    | '"' :: rest =>
      match closing '"' cs with
      | some r => some r
      | none =>
        if rest.takeWhile (· == '"') |>.length |> (· ≤ 1) then
          (basicLines fuel rest).map fun (s, rest) => ('"' :: s, rest)
        else none
    | '\\' :: rest =>
      match endOfLine? (skipBlanks rest) with
      | some next => basicLines fuel (skipContinuation fuel next)
      | none =>
        (escape rest).bind fun (c, rest) =>
          (basicLines fuel rest).map fun (s, rest) => (c :: s, rest)
    | c :: rest =>
      match endOfLine? cs with
      | some next => (basicLines fuel next).map fun (s, rest) => ('\n' :: s, rest)
      | none =>
        if isTextChar c then
          (basicLines fuel rest).map fun (s, rest) => (c :: s, rest)
        else none
    | [] => none

/-- A text between three single quotes; ends of lines become line feeds. -/
def literalLines : Nat → Reader (List Char)
  | 0, _ => none
  | fuel + 1, cs =>
    match cs with
    | '\'' :: rest =>
      match closing '\'' cs with
      | some r => some r
      | none =>
        if rest.takeWhile (· == '\'') |>.length |> (· ≤ 1) then
          (literalLines fuel rest).map fun (s, rest) => ('\'' :: s, rest)
        else none
    | c :: rest =>
      match endOfLine? cs with
      | some next => (literalLines fuel next).map fun (s, rest) => ('\n' :: s, rest)
      | none =>
        if isTextChar c then
          (literalLines fuel rest).map fun (s, rest) => (c :: s, rest)
        else none
    | [] => none

/-- A quoted text of one line, from its opening quote on. -/
def quotedLine : Reader (List Char)
  | '"' :: rest => basic (rest.length + 1) rest
  | '\'' :: rest => literal rest
  | _ => none

/-- A quoted text of any kind, from its opening quote on. -/
def quotedText : Reader (List Char)
  | '"' :: '"' :: '"' :: rest =>
    let rest := skipFirstNewline rest
    basicLines (rest.length + 1) rest
  | '\'' :: '\'' :: '\'' :: rest =>
    let rest := skipFirstNewline rest
    literalLines (rest.length + 1) rest
  | cs => quotedLine cs

end Breaker.Toml
