import WorkMarket.Failure

/-!
# Hexadecimal input by hand

People paste scripts with blanks around them or a leading `0x`.  `validate`
checks a text without reading it; `read` takes a pasted text to its bytes.
-/

namespace WorkMarket
namespace HexInput

/-- Check length, evenness and digits, in this order.  Lengths count bytes. -/
def validate
    (characters : List Char)
    (expected : Option Nat) :
    Except Failure Unit :=
  let length := Text.utf8Length characters
  match expected.filter (· != length) with
  | some expected => .error (.hexLength expected length)
  | none =>
      if length % 2 = 1 then .error .hexOdd
      else if characters.all fun character => (Text.hexValue? character).isSome then .ok ()
      else .error .hexDigits

/-- The bytes of a pasted text. -/
def read
    (text : String) :
    Except Failure Bytes :=
  let characters := Text.stripLead ['0', 'x'] (Text.trim text.toList)
  match validate characters none with
  | .error failure => .error failure
  | .ok () =>
      match Hex.decodeUtf8 (Text.utf8Chars characters) with
      | .ok bytes => .ok bytes
      | .error _ => .error .hexDigits

end HexInput
end WorkMarket
