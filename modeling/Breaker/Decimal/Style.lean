import Breaker.Decimal.Shortest

/-!
# Written forms of numbers

A `Decimal.Style` holds the decisions of a written form: which magnitudes are
written without an exponent, what a whole number ends in, and which way a tie
between two shortest decimals goes.  `Decimal.Style.write` follows it.  The
three forms of this library are values: `Style.report` for reports,
`Style.plain` for messages and `Style.technical` for diagnostic texts.
-/

namespace Breaker.Decimal

/-- The decisions of a written form.  A number whose decimal point stands
`place` digits after the first digit of its decimal is written without an
exponent when `lowest ≤ place ≤ highest`; `none` sets no bound. -/
structure Style where
  lowest : Option Int
  highest : Option Int
  wholeEnding : String
  tie : Tie

namespace Style

/-- Reports: an exponent below `0.00001` and from `1e16` up, and whole
numbers end in `.0`. -/
def report : Style :=
  { lowest := some (-4), highest := some 16, wholeEnding := ".0", tie := .even }

/-- Messages: never an exponent, and whole numbers have no fraction. -/
def plain : Style :=
  { lowest := none, highest := none, wholeEnding := "", tie := .up }

/-- Diagnostic texts: an exponent below `0.0001` and from `1e16` up, and
whole numbers end in `.0`. -/
def technical : Style :=
  { lowest := some (-3), highest := some 16, wholeEnding := ".0", tie := .up }

/-- The digits with the decimal point after `place` of them. -/
def positional (style : Style) (digits : List Char) (place : Int) : List Char :=
  let count : Int := digits.length
  if place ≤ 0 then
    '0' :: '.' :: (List.replicate (-place).toNat '0' ++ digits)
  else if place < count then
    digits.take place.toNat ++ '.' :: digits.drop place.toNat
  else
    digits ++ List.replicate (place - count).toNat '0' ++ style.wholeEnding.toList

/-- One digit, the others as its fraction, and the power of ten. -/
def scientific (digits : List Char) (place : Int) : List Char :=
  let fraction := if digits.length ≤ 1 then [] else '.' :: digits.drop 1
  digits.take 1 ++ fraction ++ 'e' :: (toString (place - 1)).toList

/-- The text of a magnitude. -/
def writeUnits (style : Style) (units : Nat) : List Char :=
  if units = 0 then '0' :: style.wholeEnding.toList
  else
    let d := shortest style.tie units
    let digits := Nat.toDigits 10 d.digits
    let place := (digits.length : Int) + d.exponent
    if style.lowest.all (· ≤ place) ∧ style.highest.all (place ≤ ·) then
      positional style digits place
    else scientific digits place

/-- The text of a number. -/
def write (style : Style) : Binary64 → String
  | .nan => "NaN"
  | .infinity negative => if negative then "-inf" else "inf"
  | .finite negative units =>
    String.ofList ((if negative then ['-'] else []) ++ style.writeUnits units)

end Style

end Breaker.Decimal
