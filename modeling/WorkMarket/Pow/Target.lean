import WorkMarket.Chain.Identity
import WorkMarket.Pow.Difficulty

/-!
# Targets

A target is written compactly in thirty-two bits: the top byte is an exponent
and the other three bytes are digits.  It denotes the magnitude
`digits * 256 ^ (exponent - 3)`.  Several encodings denote one magnitude;
targets are ordered and told apart by magnitude, and `equivalent` is that
notion of sameness.  Structural equality of targets is equality of encodings.
-/

namespace WorkMarket

/-- A compactly encoded target. -/
structure Target where
  /-- The thirty-two bits of the encoding. -/
  compact : UInt32
deriving DecidableEq, Inhabited

namespace Target

/-- The smallest exponent of a valid target. -/
def minExponent : Nat := 3

/-- The largest exponent of a valid target. -/
def maxExponent : Nat := 32

/-- The number of values that three bytes of digits take. -/
def digitRange : Nat := 0x1000000

/-- Pack an exponent and digits.  Only the low twenty-four bits of the digits
are kept, and nothing is normalized. -/
def ofParts
    (exponent : UInt8)
    (digits : UInt32) :
    Target :=
  ⟨UInt32.ofNat (exponent.toNat * digitRange + digits.toNat % digitRange)⟩

/-- The top byte of the encoding. -/
def exponent
    (target : Target) :
    Nat :=
  target.compact.toNat / digitRange

/-- The low three bytes of the encoding. -/
def digits
    (target : Target) :
    Nat :=
  target.compact.toNat % digitRange

/-- Exponents run from three to thirty-two, and the digits must not be zero. -/
def isValid
    (target : Target) :
    Bool :=
  minExponent ≤ target.exponent && target.exponent ≤ maxExponent && target.digits != 0

/-- The magnitude of a target; an invalid encoding denotes zero. -/
def magnitude
    (target : Target) :
    Nat :=
  if target.isValid then target.digits * Nat.pow 256 (target.exponent - minExponent) else 0

theorem magnitude_pos
    {target : Target}
    (valid : target.isValid = true) :
    0 < target.magnitude := by
  have nonzero : target.digits ≠ 0 := by
    intro zeroDigits
    simp [isValid, zeroDigits] at valid
  rw [magnitude, if_pos valid]
  exact Nat.mul_pos (Nat.pos_of_ne_zero nonzero) (Nat.pow_pos (by decide))

/-- The exact difficulty; an invalid target has none. -/
def difficulty
    (target : Target) :
    Except Failure Difficulty :=
  if valid : target.isValid = true then
    .ok (.ofMagnitude target.magnitude (magnitude_pos valid))
  else .error (.undefinedDifficulty target.compact)

/-- The order of magnitudes. -/
def order
    (left right : Target) :
    Ordering :=
  compare left.magnitude right.magnitude

/-- Whether two encodings denote one magnitude. -/
def equivalent
    (left right : Target) :
    Bool :=
  left.magnitude = right.magnitude

/-- The easiest target. -/
def easiest : Target := ofParts 32 0xffffff

/-- The hardest target. -/
def hardest : Target := ofParts 3 0x000001

/-- A target met by half of all hashes. -/
def half : Target := ofParts 32 0x800000

/-- A target met by a quarter of all hashes. -/
def quarter : Target := ofParts 32 0x400000

/-- A target met by an eighth of all hashes. -/
def eighth : Target := ofParts 32 0x200000

/-- A target met by a sixteenth of all hashes. -/
def sixteenth : Target := ofParts 32 0x100000

/-- The four bytes of the encoding, least significant first. -/
def toBytes
    (target : Target) :
    Bytes :=
  LittleEndian.ofUInt32 target.compact

/-- The target of four bytes, least significant first. -/
def ofBytes
    (bytes : Bytes) :
    Target :=
  ⟨LittleEndian.toUInt32 bytes⟩

@[simp] theorem length_toBytes
    (target : Target) :
    target.toBytes.length = 4 :=
  LittleEndian.length_ofUInt32 _

@[simp] theorem ofBytes_toBytes
    (target : Target) :
    ofBytes target.toBytes = target := by
  simp [ofBytes, toBytes]

/-- The eight digits of the encoding. -/
def toHexChars
    (target : Target) :
    List Char :=
  Text.hexPadded 8 target.compact.toNat

/-- The text of a target. -/
def toHex
    (target : Target) :
    String :=
  String.ofList target.toHexChars

/-- Read the characters of a target: eight bytes of digits, perhaps behind
`0x`.  A plus sign may take the place of the first digit. -/
def ofHexChars
    (characters : List Char) :
    Except Failure Target :=
  let body := Text.stripLead ['0', 'x'] characters
  let length := Text.utf8Length body
  if length ≠ 8 then .error (.targetLength length)
  else
    match Text.numberOf? Text.hexValue? 16 (Text.stripLead ['+'] body) with
    | some number => .ok ⟨UInt32.ofNat number⟩
    | none => .error .targetDigits

/-- Read the text of a target. -/
def ofHex
    (text : String) :
    Except Failure Target :=
  ofHexChars text.toList

end Target

end WorkMarket
