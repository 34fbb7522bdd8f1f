import WorkMarket.Text.Utf8

/-!
# Hexadecimal text

Two digits stand for a byte.  Writing uses lower-case digits, reading takes
either case.  Reading looks at the bytes of the text, not at its characters:
an odd number of bytes is reported before any bad digit, and a bad digit is
reported by the position of its byte.
-/

namespace WorkMarket
namespace Hex

/-- Why a text is not hexadecimal. -/
inductive Fault where
  /-- The text has an odd number of bytes. -/
  | oddLength
  /-- The first byte that is no digit, and where it stands. -/
  | badDigit (byte : UInt8) (position : Nat)
deriving DecidableEq

/-- The wording of a fault. -/
def Fault.message : Fault → String
  | .oddLength => "Odd number of digits"
  | .badDigit byte position =>
      "Invalid character " ++ Text.quotedByte byte ++ " at position " ++ toString position

/-- The value of a digit of either case. -/
def digitValue
    (byte : UInt8) :
    Option UInt8 :=
  if 0x30 ≤ byte ∧ byte ≤ 0x39 then some (byte - 0x30)
  else if 0x61 ≤ byte ∧ byte ≤ 0x66 then some (byte - 0x61 + 10)
  else if 0x41 ≤ byte ∧ byte ≤ 0x46 then some (byte - 0x41 + 10)
  else none

/-- The lower-case digit of a value below sixteen. -/
def digit
    (value : UInt8) :
    Char :=
  Nat.digitChar value.toNat

/-- The digits of a byte string, two for each byte. -/
def encodeChars
    (bytes : Bytes) :
    List Char :=
  bytes.flatMap fun byte => [digit (byte / 16), digit (byte % 16)]

/-- The text of a byte string. -/
def encode
    (bytes : Bytes) :
    String :=
  String.ofList (encodeChars bytes)

/-- Read pairs of digits, the first of which stands at `position`. -/
def decodePairs
    (position : Nat) :
    Bytes → Except Fault Bytes
  | [] => .ok []
  | [_] => .error .oddLength
  | high :: low :: rest =>
      match digitValue high with
      | none => .error (.badDigit high position)
      | some highValue =>
          match digitValue low with
          | none => .error (.badDigit low (position + 1))
          | some lowValue =>
              (decodePairs (position + 2) rest).map fun bytes =>
                (highValue * 16 + lowValue) :: bytes

/-- Read the bytes of a hexadecimal text. -/
def decodeUtf8
    (text : Bytes) :
    Except Fault Bytes :=
  if text.length % 2 = 1 then .error .oddLength else decodePairs 0 text

/-- Read a hexadecimal text. -/
def decode
    (text : String) :
    Except Fault Bytes :=
  decodeUtf8 (Text.utf8 text)

end Hex
end WorkMarket
