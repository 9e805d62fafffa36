import Breaker.Clock

/-!
# Texts of spans of time

Diagnostic texts show a span in the largest unit that leaves a whole part, with
as many decimals as it needs.
-/

namespace Breaker.Text

/-- The digits of `n`, filled up with zeros in front to `width` of them. -/
def padded (width n : Nat) : List Char :=
  let digits := Nat.toDigits 10 n
  List.replicate (width - digits.length) '0' ++ digits

/-- A whole part and a fraction of `width` digits, zeros at its end left
out. -/
def decimal (whole fraction width : Nat) : String :=
  let digits := ((padded width fraction).reverse.dropWhile (· == '0')).reverse
  if digits.isEmpty then toString whole else toString whole ++ "." ++ String.ofList digits

/-- A span in the largest unit that leaves a whole part. -/
def duration (span : Span) : String :=
  if Clock.second ≤ span then
    decimal (span / Clock.second) (span % Clock.second) 9 ++ "s"
  else if Clock.millisecond ≤ span then
    decimal (span / Clock.millisecond) (span % Clock.millisecond) 6 ++ "ms"
  else if 1000 ≤ span then decimal (span / 1000) (span % 1000) 3 ++ "µs"
  else toString span ++ "ns"

example : duration 1500000000 = "1.5s" := by cbv
example : duration 0 = "0ns" := by cbv

end Breaker.Text
