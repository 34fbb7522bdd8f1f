import WorkMarket.Text.Decimal.Shortest
import WorkMarket.Text.Utf8

/-!
# Writing doubles

A `Decimal.Style` says how the shortest digits of a double are laid out.
`fixed` writes a double with a fixed number of places instead.
-/

namespace WorkMarket
namespace Decimal

/-- How doubles are written. -/
structure Style where
  /-- The largest power of ten written without an exponent. -/
  largest : Option Int
  /-- The smallest power of ten written without an exponent. -/
  smallest : Option Int
  /-- Whether a whole number ends in a point and a zero. -/
  keepsPoint : Bool
  /-- Whether a positive exponent shows its sign. -/
  marksPlus : Bool
  /-- Which of two equally near decimals is written. -/
  tie : Tie
  /-- What is no number. -/
  notANumber : String
  /-- What is larger than every number. -/
  infinite : String
  /-- What is smaller than every number. -/
  negativeInfinite : String

namespace Style

/-- Numbers in JSON texts.  They have no form for what is not finite. -/
def json : Style :=
  ⟨some 15, some (-5), true, true, .even, "null", "null", "null"⟩

/-- Numbers in YAML texts. -/
def yaml : Style :=
  ⟨some 15, some (-5), true, false, .even, ".nan", ".inf", "-.inf"⟩

/-- Numbers in reports, which never have an exponent. -/
def plain : Style :=
  ⟨none, none, false, false, .up, "NaN", "inf", "-inf"⟩

/-- Whether a number with such a leading digit is written without exponent. -/
def isPositional
    (style : Style)
    (leading : Int) :
    Bool :=
  style.largest.all (leading ≤ ·) && style.smallest.all (· ≤ leading)

/-- Digits with a point among them and no exponent. -/
def positional
    (style : Style)
    (digits : List Char)
    (leading : Int) :
    List Char :=
  if leading < 0 then
    '0' :: '.' :: List.replicate (-leading - 1).toNat '0' ++ digits
  else
    let whole := leading.toNat + 1
    if whole < digits.length then digits.take whole ++ '.' :: digits.drop whole
    else
      digits ++ List.replicate (whole - digits.length) '0' ++
        (if style.keepsPoint then ['.', '0'] else [])

/-- Digits with a point behind the first and an exponent. -/
def scientific
    (style : Style)
    (digits : List Char)
    (leading : Int) :
    List Char :=
  let fraction :=
    match digits with
    | first :: second :: rest => first :: '.' :: second :: rest
    | short => short
  let sign := if leading < 0 then ['-'] else if style.marksPlus then ['+'] else []
  fraction ++ 'e' :: sign ++ Nat.toDigits 10 leading.natAbs

/-- The magnitude of a finite double. -/
def magnitude
    (style : Style)
    (parts : Binary64.Parts) :
    List Char :=
  if parts.significand = 0 then style.positional ['0'] 0
  else
    let decimal := shortest style.tie parts
    if style.isPositional decimal.leading then style.positional decimal.digits decimal.leading
    else style.scientific decimal.digits decimal.leading

/-- The text of a double. -/
def write
    (style : Style)
    (value : Float) :
    String :=
  match Binary64.parts value with
  | some parts =>
      String.ofList ((if parts.negative then ['-'] else []) ++ style.magnitude parts)
  | none =>
      if value.isNaN then style.notANumber
      else if value < 0 then style.negativeInfinite
      else style.infinite

end Style

/-- A double with exactly `places` digits behind the point, a half going to
the even neighbour. -/
def fixed
    (places : Nat)
    (value : Float) :
    String :=
  match Binary64.parts value with
  | none => Style.plain.write value
  | some parts =>
      let unit := Nat.pow 10 places
      let numerator := parts.significand * Nat.pow 2 parts.exponent.toNat * unit
      let units := roundHalfEven numerator (Nat.pow 2 (-parts.exponent).toNat)
      String.ofList
        ((if parts.negative then ['-'] else []) ++
          Nat.toDigits 10 (units / unit) ++
          (if places = 0 then [] else '.' :: Text.decimalPadded places (units % unit)))

end Decimal
end WorkMarket
