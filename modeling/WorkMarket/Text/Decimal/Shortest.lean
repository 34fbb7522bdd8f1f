import WorkMarket.Number.Binary64

/-!
# The fewest digits that read back

Every double stands for the real numbers that round to it.  `Decimal.shortest`
finds the decimal with the fewest digits among them, and of several with so
few digits the nearest to the double.  All comparisons are made with whole
numbers.
-/

namespace WorkMarket

/-- The decimal number `significand * 10 ^ exponent`. -/
structure Decimal where
  significand : Nat
  exponent : Int
deriving DecidableEq

namespace Decimal

/-- Which of two equally near decimals is taken. -/
inductive Tie where
  /-- The one with an even last digit. -/
  | even
  /-- The larger one. -/
  | up
deriving DecidableEq

/-- The reals that round to a positive double, counted in quarters of the unit
of its last binary place. -/
structure Neighbourhood where
  lower : Nat
  value : Nat
  upper : Nat
  /-- Whether the ends belong to it. -/
  closed : Bool
  /-- The binary exponent of a quarter. -/
  exponent : Int

namespace Neighbourhood

/-- The neighbourhood of a positive double.  Below a power of two doubles are
twice as dense. -/
def ofParts
    (parts : Binary64.Parts) :
    Neighbourhood :=
  let quarters := 4 * parts.significand
  let below := if parts.significand = Binary64.fractionRange ∧ -1074 < parts.exponent then 1 else 2
  ⟨quarters - below, quarters, quarters + 2, parts.significand % 2 = 0, parts.exponent - 2⟩

/-- The numerator of a quarter counted in units of a power of ten. -/
def numerator
    (near : Neighbourhood)
    (power : Int) :
    Nat :=
  Nat.pow 2 near.exponent.toNat * Nat.pow 10 (-power).toNat

/-- The denominator of a quarter counted in units of a power of ten. -/
def denominator
    (near : Neighbourhood)
    (power : Int) :
    Nat :=
  Nat.pow 2 (-near.exponent).toNat * Nat.pow 10 power.toNat

/-- Whether `count` units of a power of ten lie in the neighbourhood. -/
def holds
    (near : Neighbourhood)
    (power : Int)
    (count : Nat) :
    Bool :=
  let point := count * near.denominator power
  let lower := near.lower * near.numerator power
  let upper := near.upper * near.numerator power
  if near.closed then lower ≤ point && point ≤ upper else lower < point && point < upper

/-- The exponent of the leading decimal digit. -/
def leadingExponent
    (near : Neighbourhood) :
    Int :=
  let numerator := near.value * near.numerator 0
  let denominator := near.denominator 0
  if denominator ≤ numerator then
    ((Nat.toDigits 10 (numerator / denominator)).length : Int) - 1
  else
    let places := (Nat.toDigits 10 (denominator / numerator)).length
    if numerator * Nat.pow 10 (places - 1) = denominator then 1 - (places : Int)
    else -(places : Int)

/-- The multiple of a power of ten that lies in the neighbourhood and is
nearest to its value, if there is one. -/
def nearest?
    (near : Neighbourhood)
    (tie : Tie)
    (power : Int) :
    Option Nat :=
  let exact := near.value * near.numerator power
  let unit := near.denominator power
  let floor := exact / unit
  let twice := 2 * (exact % unit)
  match near.holds power floor, near.holds power (floor + 1) with
  | false, false => none
  | true, false => some floor
  | false, true => some (floor + 1)
  | true, true =>
      if twice < unit then some floor
      else if unit < twice then some (floor + 1)
      else
        match tie with
        | .up => some (floor + 1)
        | .even => some (if floor % 2 = 0 then floor else floor + 1)

/-- The first of ever finer grids that has a point in the neighbourhood. -/
def search
    (near : Neighbourhood)
    (tie : Tie) :
    (finer : Nat) → (power : Int) → Decimal
  | 0, power => ⟨near.value * near.numerator power / near.denominator power, power⟩
  | finer + 1, power =>
      match near.nearest? tie power with
      | some count => ⟨count, power⟩
      | none => search near tie finer (power - 1)

end Neighbourhood

/-- The shortest decimal that rounds to a positive double.  Seventeen digits
always suffice. -/
def shortest
    (tie : Tie)
    (parts : Binary64.Parts) :
    Decimal :=
  let near := Neighbourhood.ofParts parts
  near.search tie 17 near.leadingExponent

/-- The digits of a decimal without zeros at the end. -/
def digits
    (decimal : Decimal) :
    List Char :=
  ((Nat.toDigits 10 decimal.significand).reverse.dropWhile (· = '0')).reverse

/-- The exponent of the leading digit. -/
def leading
    (decimal : Decimal) :
    Int :=
  decimal.exponent + (Nat.toDigits 10 decimal.significand).length - 1

end Decimal

end WorkMarket
