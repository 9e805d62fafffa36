import Breaker.Toml.Blank

/-!
# Numbers, dates and times

Whole numbers have 64 bits with a sign; decimal ones have no zero in front,
and an underscore may stand between two digits.  A fraction or an exponent makes
a number of binary64, which must not round to positive infinity.  A date, a
time of day, or both with an offset are checked for their ranges.
-/

namespace Breaker.Toml

/-- Is the character a decimal digit? -/
def isDigit (c : Char) : Bool := '0' ≤ c && c ≤ '9'

/-- One or more digits, single underscores between them left out. -/
def digitRun (isOne : Char → Bool) : Reader (List Char)
  | [] => none
  | c :: cs =>
    if isOne c then
      match cs with
      | [] => some ([c], [])
      | d :: rest =>
        if d = '_' then (digitRun isOne rest).map fun (ds, rest) => (c :: ds, rest)
        else if isOne d then (digitRun isOne (d :: rest)).map fun (ds, rest) => (c :: ds, rest)
        else some ([c], d :: rest)
    else none

/-- The value of a digit up to `f`. -/
def digitValue (c : Char) : Nat :=
  if isDigit c then c.toNat - '0'.toNat
  else if 'a' ≤ c then c.toNat - 'a'.toNat + 10
  else c.toNat - 'A'.toNat + 10

/-- The number that digits write. -/
def digitsValue (base : Nat) (digits : List Char) : Nat :=
  digits.foldl (fun n c => base * n + digitValue c) 0

/-- A whole number, if 64 bits hold it. -/
def integer? (n : Int) : Option Value :=
  if -0x8000000000000000 ≤ n ∧ n < 0x8000000000000000 then some (.integer n) else none

/-- A sign: whether it is a minus, and the text after it. -/
def sign (cs : List Char) : Bool × List Char :=
  match cs with
  | '-' :: rest => (true, rest)
  | '+' :: rest => (false, rest)
  | cs => (false, cs)

/-- The whole part of a decimal number: one zero, or digits that start with
none. -/
def wholePart : Reader (List Char)
  | '0' :: rest => some (['0'], rest)
  | cs => digitRun isDigit cs

/-- An exponent from its letter on, if there is one; the letter alone is no
number. -/
def exponentPart (cs : List Char) : Option (Option Int × List Char) :=
  match cs with
  | c :: rest =>
    if c = 'e' ∨ c = 'E' then
      let (negative, rest) := sign rest
      (digitRun isDigit rest).map fun (digits, rest) =>
        let n : Int := digitsValue 10 digits
        (some (if negative then -n else n), rest)
    else some (none, cs)
  | [] => some (none, [])

/-- A fraction from its point on, if there is one; the point alone is no
number. -/
def fractionPart (cs : List Char) : Option (Option (List Char) × List Char) :=
  match cs with
  | '.' :: rest => (digitRun isDigit rest).map fun (digits, rest) => (some digits, rest)
  | cs => some (none, cs)

/-- A number of binary64, if it does not round to positive infinity. -/
def float? (negative : Bool) (digits : List Char) (exponent : Int) : Option Value :=
  let x := Binary64.ofDecimal negative (digitsValue 10 digits) exponent
  if x = .infinity false then none else some (.float x)

/-- A decimal number: whole, or with a fraction or an exponent. -/
def decimalNumber : Reader Value := fun cs => do
  let (negative, cs) := sign cs
  let (whole, cs) ← wholePart cs
  let (fraction, cs) ← fractionPart cs
  let (exponent, cs) ← exponentPart cs
  match fraction, exponent with
  | none, none =>
    let n : Int := digitsValue 10 whole
    let value ← integer? (if negative then -n else n)
    pure (value, cs)
  | _, _ =>
    let fraction := fraction.getD []
    let value ← float? negative (whole ++ fraction) (exponent.getD 0 - fraction.length)
    pure (value, cs)

/-- A whole number in another base, after its mark. -/
def radixNumber (base : Nat) (isOne : Char → Bool) : Reader Value := fun cs => do
  let (digits, cs) ← digitRun isOne cs
  let value ← integer? (digitsValue base digits)
  pure (value, cs)

/-- Is the character a hexadecimal digit? -/
def isHexDigit (c : Char) : Bool :=
  isDigit c || ('a' ≤ c && c ≤ 'f') || ('A' ≤ c && c ≤ 'F')

/-- A number of any form, the special ones included. -/
def number : Reader Value := fun cs =>
  match sign cs with
  | (negative, 'i' :: 'n' :: 'f' :: rest) => some (.float (.infinity negative), rest)
  | (_, 'n' :: 'a' :: 'n' :: rest) => some (.float .nan, rest)
  | _ =>
    match cs with
    | '0' :: 'x' :: rest => radixNumber 16 isHexDigit rest
    | '0' :: 'o' :: rest => radixNumber 8 (fun c => '0' ≤ c && c ≤ '7') rest
    | '0' :: 'b' :: rest => radixNumber 2 (fun c => c == '0' || c == '1') rest
    | cs => decimalNumber cs

/-! ## Dates and times -/

/-- A number of exactly `width` digits between `low` and `high`. -/
def fixedNumber (width low high : Nat) : Reader Nat := fun cs =>
  let digits := cs.take width
  let n := digitsValue 10 digits
  if digits.length = width ∧ digits.all isDigit ∧ low ≤ n ∧ n ≤ high then
    some (n, cs.drop width)
  else none

/-- One given character. -/
def mark (c : Char) : List Char → Option (List Char)
  | d :: rest => if c = d then some rest else none
  | [] => none

/-- How many days the month has. -/
def daysIn (year month : Nat) : Nat :=
  if month = 2 then
    if year % 4 = 0 ∧ (year % 100 ≠ 0 ∨ year % 400 = 0) then 29 else 28
  else if month = 4 ∨ month = 6 ∨ month = 9 ∨ month = 11 then 30
  else 31

/-- The text after a date. -/
def skipDate (cs : List Char) : Option (List Char) := do
  let (year, cs) ← fixedNumber 4 0 9999 cs
  let cs ← mark '-' cs
  let (month, cs) ← fixedNumber 2 1 12 cs
  let cs ← mark '-' cs
  let (_, cs) ← fixedNumber 2 1 (daysIn year month) cs
  pure cs

/-- The text after a point and digits, if they stand here. -/
def skipSecondFraction (cs : List Char) : List Char :=
  match cs with
  | '.' :: d :: rest => if isDigit d then rest.dropWhile isDigit else cs
  | cs => cs

/-- The text after a time of day. -/
def skipTime (cs : List Char) : Option (List Char) := do
  let (_, cs) ← fixedNumber 2 0 23 cs
  let cs ← mark ':' cs
  let (_, cs) ← fixedNumber 2 0 59 cs
  let cs ← mark ':' cs
  let (_, cs) ← fixedNumber 2 0 60 cs
  pure (skipSecondFraction cs)

/-- The text after an offset, if one stands here. -/
def skipOffset (cs : List Char) : List Char :=
  match cs with
  | 'Z' :: rest => rest
  | 'z' :: rest => rest
  | c :: rest =>
    if c = '+' ∨ c = '-' then
      let after := do
        let (_, rest) ← fixedNumber 2 0 23 rest
        let rest ← mark ':' rest
        let (_, rest) ← fixedNumber 2 0 59 rest
        pure rest
      after.getD cs
    else cs
  | [] => []

/-- A date, a time of day, or a date with a time and perhaps an offset. -/
def dateTime : Reader Value := fun cs =>
  match skipDate cs with
  | some rest =>
    match rest with
    | c :: afterMark =>
      if c = 'T' ∨ c = 't' ∨ c = ' ' then
        match skipTime afterMark with
        | some rest => some (.dateTime, skipOffset rest)
        | none => some (.dateTime, rest)
      else some (.dateTime, rest)
    | [] => some (.dateTime, [])
  | none => (skipTime cs).map (.dateTime, ·)

end Breaker.Toml
