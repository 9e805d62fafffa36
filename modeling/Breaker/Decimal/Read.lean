import Breaker.Binary64

/-!
# Reading numbers

A number may have a sign, a fraction, an exponent, and digits missing on one
side of its point; `inf`, `infinity` and `nan` are numbers in any case of
letters.
-/

namespace Breaker.Decimal

/-- Decimal digits at the start of a text, and the text after them. -/
def takeDigits (cs : List Char) : List Char × List Char :=
  (cs.takeWhile Char.isDigit, cs.dropWhile Char.isDigit)

/-- The whole number that digits write. -/
def ofDigits (digits : List Char) : Nat :=
  digits.foldl (fun n c => 10 * n + (c.toNat - '0'.toNat)) 0

/-- A sign at the start of a text: whether it is a minus, and the text after
it. -/
def takeSign (cs : List Char) : Bool × List Char :=
  match cs with
  | '-' :: rest => (true, rest)
  | '+' :: rest => (false, rest)
  | cs => (false, cs)

/-- The exponent that the whole text writes; no text is zero. -/
def readExponent (cs : List Char) : Option Int :=
  match cs with
  | [] => some 0
  | c :: rest =>
    if c = 'e' ∨ c = 'E' then
      let (negative, rest) := takeSign rest
      let (digits, rest) := takeDigits rest
      if digits.isEmpty ∨ !rest.isEmpty then none
      else
        let n : Int := ofDigits digits
        some (if negative then -n else n)
    else none

/-- The number that a text writes, in binary64. -/
def read? (text : String) : Option Binary64 :=
  let (negative, cs) := takeSign text.toList
  let word := String.ofList (cs.map Char.toLower)
  if word = "inf" ∨ word = "infinity" then some (.infinity negative)
  else if word = "nan" then some .nan
  else
    let (whole, cs) := takeDigits cs
    let (fraction, cs) := match cs with
      | '.' :: rest => takeDigits rest
      | cs => ([], cs)
    if whole.isEmpty ∧ fraction.isEmpty then none
    else (readExponent cs).map fun exponent =>
      Binary64.ofDecimal negative (ofDigits (whole ++ fraction)) (exponent - fraction.length)

/-- The whole number that a text writes, with a sign or without. -/
def readInt? (text : String) : Option Int :=
  let (negative, cs) := takeSign text.toList
  let (digits, rest) := takeDigits cs
  if digits.isEmpty ∨ !rest.isEmpty then none
  else
    let n : Int := ofDigits digits
    some (if negative then -n else n)

end Breaker.Decimal
