import WorkMarket.Text.Decimal.Shortest
import WorkMarket.Text.Utf8

/-!
# Reading doubles

A double is spelled as digits with at most one point among them, an optional
exponent and an optional sign, or by the word for what is not finite.
`Decimal.readFloat?` answers with the double nearest to the number spelled.
-/

namespace WorkMarket
namespace Decimal

/-- The double nearest to a decimal.  What is far beyond the doubles at either
end is decided without computing its power of ten. -/
def toFloat
    (decimal : Decimal) :
    Float :=
  if decimal.significand = 0 ∨ decimal.leading < -400 then 0.0
  else if 400 < decimal.leading then 1.0 / 0.0
  else
    Float.ofScientific decimal.significand (decimal.exponent < 0) decimal.exponent.natAbs

/-- The digits at the start of a text and what follows them. -/
def spanDigits
    (characters : List Char) :
    List Char × List Char :=
  (characters.takeWhile Char.isDigit, characters.dropWhile Char.isDigit)

/-- A decimal of digits before and behind the point. -/
def ofDigits?
    (whole fraction : List Char) :
    Option Decimal :=
  if whole.isEmpty && fraction.isEmpty then none
  else
    (Text.numberOf? Text.decimalValue? 10 (whole ++ fraction)).map fun significand =>
      ⟨significand, -(fraction.length : Int)⟩

/-- A whole number with an optional sign. -/
def signedWhole?
    (characters : List Char) :
    Option Int :=
  let (negative, digits) :=
    match characters with
    | '-' :: digits => (true, digits)
    | '+' :: digits => (false, digits)
    | digits => (false, digits)
  if digits.isEmpty then none
  else
    (Text.numberOf? Text.decimalValue? 10 digits).map fun magnitude =>
      if negative then -(magnitude : Int) else (magnitude : Int)

/-- The decimal that digits with a point and an exponent spell. -/
def ofChars?
    (characters : List Char) :
    Option Decimal := do
  let (whole, rest) := spanDigits characters
  let (fraction, rest) :=
    match rest with
    | '.' :: rest => spanDigits rest
    | rest => ([], rest)
  let decimal ← ofDigits? whole fraction
  match rest with
  | [] => some decimal
  | mark :: rest =>
      if mark = 'e' ∨ mark = 'E' then
        (signedWhole? rest).map fun shift => { decimal with exponent := decimal.exponent + shift }
      else none

/-- The double that a text without sign spells. -/
def magnitude?
    (characters : List Char) :
    Option Float :=
  match String.ofList (characters.map Char.toLower) with
  | "inf" | "infinity" => some (1.0 / 0.0)
  | "nan" => some (0.0 / 0.0)
  | _ => (ofChars? characters).map toFloat

/-- The double that a text spells. -/
def readFloat?
    (characters : List Char) :
    Option Float :=
  match characters with
  | '-' :: rest => (magnitude? rest).map Float.neg
  | '+' :: rest => magnitude? rest
  | rest => magnitude? rest

end Decimal
end WorkMarket
