import Breaker.Binary64

/-!
# The fewest decimal digits that read back

The reals that round to a given binary number form an interval around it.
`Decimal.shortest` finds the coarsest power of ten with a multiple inside the
interval, and of the multiples on that grid the nearest one.  All of it is
exact arithmetic on naturals: the interval is kept in quarters of a unit, so
that half the distance to a neighbour is a whole number.
-/

namespace Breaker

/-- The decimal number `digits * 10 ^ exponent`. -/
structure Decimal where
  digits : Nat
  exponent : Int
  deriving DecidableEq, Repr

/-- Where a decimal exactly half way between two candidates goes. -/
inductive Tie where
  | even
  | up
  deriving DecidableEq, Repr

namespace Decimal

/-- The reals that round to one binary number, in quarters of a unit, with
the number itself and whether the ends belong to the interval. -/
structure Interval where
  low : Nat
  value : Nat
  high : Nat
  closed : Bool

/-- The interval of the number with `units` units.  Below a power of two the
neighbours are half as far apart as above it. -/
def Interval.ofUnits (units : Nat) : Interval :=
  let gap := Nat.pow 2 (Binary64.spacing units)
  let below := if units = Nat.pow 2 units.log2 ∧ 1 < gap then gap else 2 * gap
  { low := 4 * units - below
    value := 4 * units
    high := 4 * units + 2 * gap
    closed := (units / gap) % 2 = 0 }

/-- Does the interval hold `point / den`, all in quarters of a unit? -/
def Interval.contains (i : Interval) (point den : Nat) : Bool :=
  if i.closed then i.low * den ≤ point ∧ point ≤ i.high * den
  else i.low * den < point ∧ point < i.high * den

/-- The number of quarters of a unit in one. -/
def quartersPerOne : Nat := 4 * Binary64.unitsPerOne

/-- The place of the leading digit: `10 ^ (e - 1) ≤ value < 10 ^ e`, where
the value is `quarters / quartersPerOne`. -/
def magnitude (quarters : Nat) : Int :=
  if quartersPerOne ≤ quarters then
    (Nat.toDigits 10 (quarters / quartersPerOne)).length
  else
    1 - ((Nat.toDigits 10 (quartersPerOne / quarters)).length : Int)

/-- The multiple of `10 ^ exponent` in the interval that is nearest to its
value, if there is one: only the neighbours of the value come in question. -/
def onGrid (tie : Tie) (i : Interval) (exponent : Int) : Option Nat :=
  let up := Nat.pow 10 exponent.toNat * quartersPerOne
  let down := Nat.pow 10 (-exponent).toNat
  let floor := i.value * down / up
  let rest := i.value * down % up
  let low := i.contains (floor * up) down
  let high := i.contains ((floor + 1) * up) down
  let nearer : Nat :=
    if 2 * rest < up then floor
    else if up < 2 * rest then floor + 1
    else match tie with
      | .up => floor + 1
      | .even => floor + floor % 2
  match low, high with
  | true, true => some nearer
  | true, false => some floor
  | false, true => some (floor + 1)
  | false, false => none

/-- The first hit on the grids from `exponent` down; `fuel` grids are tried,
and on the last of them the value itself is written to the digit. -/
def search (tie : Tie) (i : Interval) (exponent : Int) : Nat → Decimal
  | 0 => { digits := 0, exponent }
  | fuel + 1 =>
    match onGrid tie i exponent with
    | some digits => { digits, exponent }
    | none => search tie i (exponent - 1) fuel

/-- Drops the zeros at the end of the digits. -/
def trim (d : Decimal) : Nat → Decimal
  | 0 => d
  | fuel + 1 =>
    if d.digits % 10 = 0 ∧ d.digits ≠ 0 then
      trim { digits := d.digits / 10, exponent := d.exponent + 1 } fuel
    else d

/-- The shortest decimal that reads back as `units` units, of the shortest
ones the nearest.  Seventeen digits always suffice. -/
def shortest (tie : Tie) (units : Nat) : Decimal :=
  if units = 0 then { digits := 0, exponent := 0 }
  else
    let i := Interval.ofUnits units
    trim (search tie i (magnitude i.value - 1) 18) 18

end Decimal

end Breaker
