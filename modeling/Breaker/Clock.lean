/-!
# Instants and deadlines

Instants are counted in nanoseconds from the start of the clock.  The clock
holds less than `2 ^ 63 - 1` seconds; a deadline past that cannot be set.
-/

namespace Breaker

/-- Nanoseconds since the start of the clock. -/
abbrev Instant := Nat

/-- A length of time in nanoseconds. -/
abbrev Span := Nat

namespace Clock

/-- The nanoseconds of a second. -/
def second : Span := 1000000000

/-- The nanoseconds of a millisecond. -/
def millisecond : Span := 1000000

/-- The first instant that the clock cannot hold. -/
def horizon : Instant := 0x7FFFFFFFFFFFFFFF * second

/-- The instant `span` after `now`, if the clock can hold it. -/
def deadline? (now : Instant) (span : Span) : Option Instant :=
  if now + span < horizon then some (now + span) else none

/-- The text of the panic when the clock cannot hold a deadline. -/
def overflowText : String := "overflow when adding duration to instant"

theorem deadline?_eq_some {now : Instant} {span : Span} (h : now + span < horizon) :
    deadline? now span = some (now + span) := by
  simp [deadline?, h]

end Clock

end Breaker
