import WorkMarket.Text.Json.Value

/-!
# Numbers in JSON texts

A number is read by its leading digits that fit sixty-four bits and a power of
ten, which are combined in double arithmetic.  Whole numbers stay exact as
long as they fit sixty-four bits.  A number too large for a double reads as
infinity, which nothing accepts.
-/

namespace WorkMarket
namespace Json
namespace Numeral

/-- Leading digits and the power of ten they count. -/
structure Scaled where
  significand : Nat
  exponent : Int

/-- The largest significand kept. -/
def largestSignificand : Nat :=
  UInt64.size - 1

/-- The double nearest to a power of ten. -/
def power
    (exponent : Nat) :
    Float :=
  Float.ofScientific 1 false exponent

/-- A significand over a power of ten, which is divided out in steps that
doubles can hold. -/
def scaleDown
    (significand : Float)
    (exponent : Nat) :
    Float :=
  if exponent ≤ 308 then significand / power exponent
  else if exponent ≤ 616 then significand / power 308 / power (exponent - 308)
  else 0.0

/-- A significand times a power of ten. -/
def scaleUp
    (significand : Float)
    (exponent : Nat) :
    Float :=
  if exponent ≤ 308 then significand * power exponent
  else if significand == 0.0 then 0.0
  else 1.0 / 0.0

/-- The double that leading digits and a power of ten denote. -/
def Scaled.toFloat
    (scaled : Scaled) :
    Float :=
  let significand := Binary64.ofNat scaled.significand
  if scaled.exponent < 0 then scaleDown significand scaled.exponent.natAbs
  else scaleUp significand scaled.exponent.natAbs

/-- Take digits into a significand until the next would not fit; answers with
the significand, the number of digits taken and the rest of the text. -/
def takeDigits
    (significand taken : Nat) :
    List Char → Nat × Nat × List Char
  | [] => (significand, taken, [])
  | character :: rest =>
      match Text.decimalValue? character with
      | none => (significand, taken, character :: rest)
      | some digit =>
          let next := 10 * significand + digit
          if next ≤ largestSignificand then takeDigits next (taken + 1) rest
          else (significand, taken, character :: rest)

/-- Skip digits; answers with their number and the rest of the text. -/
def skipDigits
    (characters : List Char) :
    Nat × List Char :=
  let digits := characters.takeWhile Char.isDigit
  (digits.length, characters.drop digits.length)

/-- The digits before the point, of which the first may be zero only if it is
the only one. -/
def whole?
    (characters : List Char) :
    Option (Scaled × List Char) :=
  match characters with
  | '0' :: '0' :: _ => none
  | '0' :: rest =>
      if rest.head?.any Char.isDigit then none else some (⟨0, 0⟩, rest)
  | _ =>
      let (significand, taken, rest) := takeDigits 0 0 characters
      if taken = 0 then none
      else
        let (skipped, rest) := skipDigits rest
        some (⟨significand, skipped⟩, rest)

/-- The digits behind the point, of which there must be one. -/
def fraction?
    (scaled : Scaled)
    (characters : List Char) :
    Option (Scaled × List Char) :=
  let (significand, taken, rest) := takeDigits scaled.significand 0 characters
  let (skipped, rest) := skipDigits rest
  if taken + skipped = 0 then none
  else some (⟨significand, scaled.exponent - taken⟩, rest)

/-- The digits of an exponent behind an optional sign. -/
def exponent?
    (scaled : Scaled)
    (characters : List Char) :
    Option (Scaled × List Char) :=
  let (negative, digits) :=
    match characters with
    | '-' :: rest => (true, rest)
    | '+' :: rest => (false, rest)
    | other => (false, other)
  let (count, rest) := skipDigits digits
  if count = 0 then none
  else
    match Text.numberOf? Text.decimalValue? 10 (digits.take count) with
    | none => none
    | some shift =>
        some (⟨scaled.significand,
          scaled.exponent + if negative then -(shift : Int) else (shift : Int)⟩, rest)

/-- A number that turned out to be no whole number of sixty-four bits. -/
def ofScaled
    (negative : Bool)
    (scaled : Scaled) :
    Json :=
  .real (if negative then -scaled.toFloat else scaled.toFloat)

/-- A whole number, with the digits that did not fit counted in its power of
ten. -/
def ofWhole
    (negative : Bool)
    (scaled : Scaled) :
    Json :=
  if scaled.exponent = 0 then
    if negative then
      if scaled.significand = 0 ∨ UInt64.size / 2 < scaled.significand then ofScaled true scaled
      else .integer (-scaled.significand)
    else .integer scaled.significand
  else ofScaled negative scaled

/-- Read the exponent of a number, if it has one. -/
def finish?
    (negative : Bool)
    (scaled : Scaled)
    (without : Json)
    (characters : List Char) :
    Option (Json × List Char) :=
  match characters with
  | 'e' :: rest | 'E' :: rest =>
      (exponent? scaled rest).map fun (scaled, rest) => (ofScaled negative scaled, rest)
  | other => some (without, other)

/-- Read a number behind its sign. -/
def unsigned?
    (negative : Bool)
    (characters : List Char) :
    Option (Json × List Char) := do
  let (scaled, rest) ← whole? characters
  match rest with
  | '.' :: rest =>
      let (scaled, rest) ← fraction? scaled rest
      finish? negative scaled (ofScaled negative scaled) rest
  | rest => finish? negative scaled (ofWhole negative scaled) rest

/-- Read a number and return the rest of the text. -/
def read?
    (characters : List Char) :
    Option (Json × List Char) :=
  match characters with
  | '-' :: rest => unsigned? true rest
  | other => unsigned? false other

end Numeral
end Json
end WorkMarket
