import Breaker.Text.Unprintable

/-!
# Quoted text

A diagnostic text shows a string between double quotes.  Quotes, backslashes
and the usual control characters have short escapes; any other character that
cannot stand for itself is written by its code point in braces.
-/

namespace Breaker.Text

/-- How one character of a quoted text is written. -/
def escapeChar (c : Char) : List Char :=
  match c with
  | '"' => ['\\', '"']
  | '\\' => ['\\', '\\']
  | '\n' => ['\\', 'n']
  | '\r' => ['\\', 'r']
  | '\t' => ['\\', 't']
  | '\x00' => ['\\', '0']
  | c =>
    if isPrintable c then [c]
    else '\\' :: 'u' :: '\x7b' :: (Nat.toDigits 16 c.toNat ++ ['\x7d'])

/-- The text between double quotes, with escapes. -/
def quoted (s : String) : String :=
  String.ofList ('"' :: (s.toList.flatMap escapeChar ++ ['"']))

end Breaker.Text
