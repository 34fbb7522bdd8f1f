import WorkMarket.Bytes.Basic

/-!
# UTF-8 and character classes

Text is kept as `String`.  Where a rule counts or names bytes, it means the
bytes of the UTF-8 form, which `utf8` lists.  `isBlank` is the Unicode class
of white space, and `quotedByte` shows one byte the way a diagnostic message
quotes it.
-/

namespace WorkMarket
namespace Text

/-- The bytes of the UTF-8 form of a list of characters. -/
def utf8Chars
    (characters : List Char) :
    Bytes :=
  characters.flatMap String.utf8EncodeChar

/-- The bytes of the UTF-8 form of a text. -/
def utf8
    (text : String) :
    Bytes :=
  utf8Chars text.toList

/-- The number of bytes of the UTF-8 form of a list of characters. -/
def utf8Length
    (characters : List Char) :
    Nat :=
  characters.foldl (fun total character => total + character.utf8Size) 0

/-- The white space of Unicode. -/
def isBlank
    (character : Char) :
    Bool :=
  let code := character.toNat
  (0x09 ≤ code && code ≤ 0x0d) || code = 0x20 || code = 0x85 || code = 0xa0 ||
    code = 0x1680 || (0x2000 ≤ code && code ≤ 0x200a) || code = 0x2028 ||
    code = 0x2029 || code = 0x202f || code = 0x205f || code = 0x3000

/-- A text without the white space at its start. -/
def trimStart
    (characters : List Char) :
    List Char :=
  characters.dropWhile isBlank

/-- A text without the white space at its ends. -/
def trim
    (characters : List Char) :
    List Char :=
  ((characters.dropWhile isBlank).reverse.dropWhile isBlank).reverse

/-- What follows `lead` in a text that starts with it. -/
def stripLead? : (lead characters : List Char) → Option (List Char)
  | [], characters => some characters
  | _ :: _, [] => none
  | expected :: lead, character :: characters =>
      if expected = character then stripLead? lead characters else none

/-- A text without `lead`, if it starts with it. -/
def stripLead
    (lead characters : List Char) :
    List Char :=
  (stripLead? lead characters).getD characters

/-- The value of a decimal digit. -/
def decimalValue?
    (character : Char) :
    Option Nat :=
  if character.isDigit then some (character.toNat - '0'.toNat) else none

/-- The value of a hexadecimal digit of either case. -/
def hexValue?
    (character : Char) :
    Option Nat :=
  if '0' ≤ character ∧ character ≤ '9' then some (character.toNat - '0'.toNat)
  else if 'a' ≤ character ∧ character ≤ 'f' then some (character.toNat - 'a'.toNat + 10)
  else if 'A' ≤ character ∧ character ≤ 'F' then some (character.toNat - 'A'.toNat + 10)
  else none

/-- The number that digits of some base denote, if all of them are digits. -/
def numberOf?
    (valueOf : Char → Option Nat)
    (base : Nat)
    (characters : List Char) :
    Option Nat :=
  characters.foldl
    (fun total? character => do
      let total ← total?
      let value ← valueOf character
      if value < base then some (base * total + value) else none)
    (some 0)

/-- The lower-case hexadecimal digits of a number. -/
def hexDigits
    (number : Nat) :
    List Char :=
  Nat.toDigits 16 number

/-- The lower-case hexadecimal digits of a number, at least `width` of them. -/
def hexPadded
    (width number : Nat) :
    List Char :=
  let digits := hexDigits number
  List.replicate (width - digits.length) '0' ++ digits

/-- The decimal digits of a number, at least `width` of them. -/
def decimalPadded
    (width number : Nat) :
    List Char :=
  let digits := Nat.toDigits 10 number
  List.replicate (width - digits.length) '0' ++ digits

/-- Whether a byte, taken as a Latin-1 character, shows a mark of its own. -/
def isVisibleByte
    (byte : UInt8) :
    Bool :=
  (0x20 ≤ byte && byte ≤ 0x7e) || (0xa1 ≤ byte && byte != 0xad)

/-- One byte as a quoted Latin-1 character.  Quotes and backslashes are
escaped, and what shows no mark of its own is written by its number. -/
def quotedByte
    (byte : UInt8) :
    String :=
  let body : List Char :=
    if byte = 0x00 then ['\\', '0']
    else if byte = 0x09 then ['\\', 't']
    else if byte = 0x0a then ['\\', 'n']
    else if byte = 0x0d then ['\\', 'r']
    else if byte = 0x27 then ['\\', '\'']
    else if byte = 0x5c then ['\\', '\\']
    else if isVisibleByte byte then [Char.ofNat byte.toNat]
    else ['\\', 'u', Char.ofNat 0x7b] ++ hexDigits byte.toNat ++ [Char.ofNat 0x7d]
  String.ofList (['\''] ++ body ++ ['\''])

/-- Texts with a separator between neighbours. -/
def joined
    (separator : String) :
    List String → String
  | [] => ""
  | [last] => last
  | first :: rest => rest.foldl (fun text next => text ++ separator ++ next) first

end Text
end WorkMarket
