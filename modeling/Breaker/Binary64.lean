/-!
# Binary floating-point numbers of 64 bits

Every finite number of the IEEE 754 format binary64 is a whole multiple of
`2 ^ (-1074)`, its *unit*.  `Binary64` keeps a finite number as a sign and a
count of units, so that order and equality of values are order and equality
of whole numbers, and rounding is one integer division.

* `Binary64.nearest` rounds a quotient of naturals to the nearest number, a
  tie to the even neighbour, and past the largest finite number to infinity.
* `Binary64.le` and `Binary64.lt` are the order of the values; a comparison
  with `nan` never holds, and the two zeros are equal in value.
-/

namespace Breaker

/-- A number of the format binary64.  `finite negative units` has the
magnitude `units * 2 ^ (-1074)`; zero has a sign of its own. -/
inductive Binary64 where
  | nan
  | infinity (negative : Bool)
  | finite (negative : Bool) (units : Nat)
  deriving DecidableEq, Repr, Inhabited

namespace Binary64

/-- The number of units in one. -/
def unitsPerOne : Nat := Nat.pow 2 1074

/-- The least count of units that no finite number reaches. -/
def unitsLimit : Nat := Nat.pow 2 2098

/-- The whole number nearest to `num / den`, a tie going to the even one. -/
def roundDiv (num den : Nat) : Nat :=
  let quotient := num / den
  let rest := num % den
  if 2 * rest < den then quotient
  else if den < 2 * rest then quotient + 1
  else quotient + quotient % 2

/-- The binary logarithm of the distance between a number of `units` units
and the next larger one: a significand has 53 bits. -/
def spacing (units : Nat) : Nat := units.log2 - 52

/-- The count of units nearest to `num / den` among those that fit a
significand of 53 bits. -/
def roundUnits (num den : Nat) : Nat :=
  let scale := Nat.pow 2 (spacing (num / den))
  roundDiv num (den * scale) * scale

/-- The number nearest to `num / den` units with the given sign. -/
def nearest (negative : Bool) (num den : Nat) : Binary64 :=
  let units := roundUnits num den
  if units < unitsLimit then .finite negative units else .infinity negative

/-- The number nearest to the fraction `num / den`. -/
def ofRatio (num den : Nat) : Binary64 := nearest false (num * unitsPerOne) den

/-- The number nearest to a whole number. -/
def ofInt (n : Int) : Binary64 :=
  nearest (decide (n < 0)) (n.natAbs * unitsPerOne) 1

/-- The number nearest to `digits * 10 ^ exponent`.  The count of digits and
the exponent together bound the value, which spares the powers of ten that
would end in zero or infinity anyway. -/
def ofDecimal (negative : Bool) (digits : Nat) (exponent : Int) : Binary64 :=
  let point := ((Nat.toDigits 10 digits).length : Int) + exponent
  if digits = 0 ∨ point < -330 then .finite negative 0
  else if 310 < point then .infinity negative
  else nearest negative
    (digits * Nat.pow 10 exponent.toNat * unitsPerOne) (Nat.pow 10 (-exponent).toNat)

/-- Zero. -/
def zero : Binary64 := .finite false 0

/-- One. -/
def one : Binary64 := .finite false unitsPerOne

/-- The count of units with its sign. -/
def signed (negative : Bool) (units : Nat) : Int :=
  if negative then -(units : Int) else units

/-- `a.le b` when the value of `a` is at most that of `b`. -/
def le : Binary64 → Binary64 → Bool
  | .nan, _ => false
  | _, .nan => false
  | .infinity true, _ => true
  | _, .infinity false => true
  | .infinity false, _ => false
  | _, .infinity true => false
  | .finite n a, .finite m b => signed n a ≤ signed m b

/-- `a.lt b` when the value of `a` is less than that of `b`. -/
def lt (a b : Binary64) : Bool := a.le b && !b.le a

/-- The nearest number between `low` and `high`; `nan` stays as it is. -/
def clamp (low high x : Binary64) : Binary64 :=
  if x.lt low then low else if high.lt x then high else x

end Binary64

end Breaker
