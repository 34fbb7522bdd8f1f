import WorkMarket.Number.Rounding

/-!
# Durations

A duration is a whole number of nanoseconds below `2 ^ 64` seconds.
`ofSeconds?` takes an exact number of seconds to the nearest nanosecond and
refuses what is negative or too long.
-/

namespace WorkMarket

/-- The nanoseconds of a second. -/
def nanosecondsPerSecond : Nat :=
  1000000000

/-- A span of time in nanoseconds, shorter than `2 ^ 64` seconds. -/
structure Duration where
  /-- The whole span. -/
  nanoseconds : Nat
  /-- The seconds fit sixty-four bits. -/
  bounded : nanoseconds < UInt64.size * nanosecondsPerSecond
deriving DecidableEq

namespace Duration

/-- A duration of so many nanoseconds, if there is one. -/
def ofNanoseconds?
    (nanoseconds : Nat) :
    Option Duration :=
  if bounded : nanoseconds < UInt64.size * nanosecondsPerSecond then some ⟨nanoseconds, bounded⟩
  else none

/-- A duration of so many whole seconds; sixty-four bits always fit. -/
def ofSeconds
    (seconds : UInt64) :
    Duration :=
  ⟨seconds.toNat * nanosecondsPerSecond,
    Nat.mul_lt_mul_of_pos_right seconds.toNat_lt_size (by decide)⟩

/-- No time at all. -/
def zero : Duration :=
  ⟨0, by decide⟩

/-- The longest duration. -/
def longest : Duration :=
  ⟨UInt64.size * nanosecondsPerSecond - 1, by decide⟩

instance : Inhabited Duration := ⟨zero⟩

/-- The whole seconds. -/
def seconds
    (duration : Duration) :
    Nat :=
  duration.nanoseconds / nanosecondsPerSecond

/-- The nanoseconds beyond the whole seconds. -/
def subsecond
    (duration : Duration) :
    Nat :=
  duration.nanoseconds % nanosecondsPerSecond

instance : LE Duration := ⟨fun left right => left.nanoseconds ≤ right.nanoseconds⟩

instance : LT Duration := ⟨fun left right => left.nanoseconds < right.nanoseconds⟩

instance (left right : Duration) : Decidable (left ≤ right) :=
  inferInstanceAs (Decidable (left.nanoseconds ≤ right.nanoseconds))

instance (left right : Duration) : Decidable (left < right) :=
  inferInstanceAs (Decidable (left.nanoseconds < right.nanoseconds))

theorem le_longest
    (duration : Duration) :
    duration ≤ longest :=
  Nat.le_pred_of_lt duration.bounded

/-- The duration nearest to an exact number of seconds, which must not be
negative; a half nanosecond goes to the even neighbour. -/
def ofRational?
    (seconds : Rat) :
    Option Duration :=
  if seconds.num < 0 then none
  else ofNanoseconds? (roundHalfEven (seconds.num.toNat * nanosecondsPerSecond) seconds.den)

end Duration

end WorkMarket
