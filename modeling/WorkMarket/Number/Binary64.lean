import WorkMarket.Number.Rounding

/-!
# Double precision numbers

A finite double is a whole number times a power of two.  `parts` takes it
apart, `toRat?` gives its exact value, and `ofNat`, `ofInt` and `ofFraction`
go from exact numbers to the nearest double.
-/

namespace WorkMarket
namespace Binary64

/-- A finite double without its sign: `significand * 2 ^ exponent`. -/
structure Parts where
  negative : Bool
  significand : Nat
  exponent : Int
deriving DecidableEq

/-- The number of values of the fifty-two bits behind the leading one. -/
def fractionRange : Nat :=
  0x10000000000000

/-- The number of values of the eleven bits of the exponent. -/
def exponentRange : Nat :=
  2048

/-- The parts of a bit pattern; there are none for infinities and non-numbers. -/
def partsOfBits
    (bits : Nat) :
    Option Parts :=
  let negative := bits / (exponentRange * fractionRange) = 1
  let exponentField : Nat := bits / fractionRange % exponentRange
  let fraction : Nat := bits % fractionRange
  if exponentField = 2047 then none
  else if exponentField = 0 then some ⟨negative, fraction, -1074⟩
  else some ⟨negative, fractionRange + fraction, (exponentField : Int) - 1075⟩

/-- The parts of a double. -/
def parts
    (value : Float) :
    Option Parts :=
  partsOfBits value.toBits.toNat

/-- The exact value of a finite double. -/
def Parts.toRat
    (parts : Parts) :
    Rat :=
  let significand : Int := if parts.negative then -parts.significand else parts.significand
  if 0 ≤ parts.exponent then ((significand * (Nat.pow 2 parts.exponent.toNat : Nat) : Int) : Rat)
  else mkRat significand (Nat.pow 2 (-parts.exponent).toNat)

/-- The exact value of a double, if it is finite. -/
def toRat?
    (value : Float) :
    Option Rat :=
  (parts value).map Parts.toRat

/-- The double nearest to a natural number, of two equally near ones the even
one.  Of a number beyond sixty-four bits, the lowest of the sixty-four leading
bits records whether any bit below is set, which is all that rounding to
fifty-three bits needs to know. -/
def ofNat
    (number : Nat) :
    Float :=
  if number < UInt64.size then (UInt64.ofNat number).toFloat
  else
    let shift := number.log2 - 63
    let leading := number >>> shift
    let sticky := if number % Nat.pow 2 shift = 0 then leading else leading ||| 1
    (UInt64.ofNat sticky).toFloat.scaleB shift

/-- The double nearest to a whole number. -/
def ofInt
    (number : Int) :
    Float :=
  if number < 0 then -(ofNat number.natAbs) else ofNat number.natAbs

/-- The number of binary digits. -/
def bitLength
    (number : Nat) :
    Nat :=
  if number = 0 then 0 else number.log2 + 1

/-- The double view of a fraction: both sides go to the nearest double and are
divided.  Where a side is beyond the doubles, both lose so many low bits that
the longer keeps a thousand. -/
def ofFraction
    (numerator : Int)
    (denominator : Nat) :
    Float :=
  let plainNumerator := ofInt numerator
  let plainDenominator := ofNat denominator
  if plainNumerator.isFinite && plainDenominator.isFinite then
    plainNumerator / plainDenominator
  else
    let shift := max (bitLength denominator) (bitLength numerator.natAbs) - 1000
    let scaledDenominator := ofNat (denominator >>> shift)
    if scaledDenominator == 0.0 then 1.0 / 0.0
    else ofInt (numerator >>> shift) / scaledDenominator

end Binary64
end WorkMarket
