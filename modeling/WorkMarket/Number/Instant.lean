/-!
# Instants

An instant is counted in seconds from the beginning of 1970, with nanoseconds
beyond the last whole second.
-/

namespace WorkMarket

/-- A point in time. -/
structure Instant where
  /-- Whole seconds since the beginning of 1970. -/
  seconds : Int
  /-- Nanoseconds beyond them; more than a second within a leap second. -/
  nanoseconds : Nat
deriving DecidableEq, Inhabited

namespace Instant

/-- A whole second. -/
def ofSeconds
    (seconds : Int) :
    Instant :=
  ⟨seconds, 0⟩

/-- Whether one instant comes before another. -/
def isBefore
    (left right : Instant) :
    Bool :=
  left.seconds < right.seconds ||
    (left.seconds = right.seconds && left.nanoseconds < right.nanoseconds)

end Instant

end WorkMarket
