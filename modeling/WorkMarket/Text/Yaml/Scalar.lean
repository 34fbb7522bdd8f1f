import WorkMarket.Text.Decimal.Reader

/-!
# YAML scalars

A scalar is a text with the style in which it was written and perhaps a tag.
Only a plain one, written without quotes, can also be a number or empty; a
literal block can be a number if its tag says so.  The words and numbers that
plain texts mean are listed here, for readers and writers alike.
-/

namespace WorkMarket
namespace Yaml

/-- How a scalar is written. -/
inductive ScalarStyle where
  | plain
  /-- Between quotes of either kind. -/
  | quoted
  /-- A block in which each line break stands for itself. -/
  | literal
  /-- A block in which lines are joined. -/
  | folded
deriving DecidableEq

/-- The name of a type that is put on a value. -/
abbrev Tag := Bytes

namespace Tag

/-- What the tags of the common types begin with. -/
def common : Tag :=
  Text.utf8 "tag:yaml.org,2002:"

/-- The tag of the empty value. -/
def null : Tag :=
  common ++ Text.utf8 "null"

/-- The tag of whole numbers. -/
def whole : Tag :=
  common ++ Text.utf8 "int"

/-- The tag of doubles. -/
def real : Tag :=
  common ++ Text.utf8 "float"

/-- The word that a tag of one's own says, without the sign before it. -/
def word? : Tag → Option String
  | [] => none
  | sign :: rest =>
      if sign = 0x21 then
        String.fromUTF8? ⟨(if rest.isEmpty then [sign] else rest).toArray⟩
      else none

end Tag

/-- A text and how it was written. -/
structure Scalar where
  tag : Option Tag
  style : ScalarStyle
  text : String
deriving DecidableEq

/-! ## What plain texts mean -/

/-- The words for an empty value. -/
def emptyWords : List String :=
  ["~", "null", "Null", "NULL"]

/-- The words for true and false. -/
def truthWords : List String :=
  ["true", "True", "TRUE", "false", "False", "FALSE"]

/-- Whether a text looks like a number but starts with a zero that no number
has. -/
def isPaddedDigits
    (characters : List Char) :
    Bool :=
  let digits :=
    match characters with
    | '-' :: rest | '+' :: rest => rest
    | other => other
  match digits with
  | '0' :: second :: rest => (second :: rest).all Char.isDigit
  | _ => false

/-- A whole number in digits of some base, of which there must be one. -/
def digits?
    (valueOf : Char → Option Nat)
    (base : Nat)
    (characters : List Char) :
    Option Nat :=
  if characters.isEmpty then none else Text.numberOf? valueOf base characters

/-- A whole number without sign, in the base that its first characters name. -/
def magnitude?
    (characters : List Char) :
    Option Nat :=
  match characters with
  | '0' :: 'x' :: rest => digits? Text.hexValue? 16 rest
  | '0' :: 'o' :: rest => digits? Text.decimalValue? 8 rest
  | '0' :: 'b' :: rest => digits? Text.decimalValue? 2 rest
  | other =>
      if isPaddedDigits other then none else digits? Text.decimalValue? 10 other

/-- The double that a plain text means.  Infinity has words of its own. -/
def realOf?
    (characters : List Char) :
    Option Float :=
  let unsigned := Text.stripLead ['+'] characters
  if characters.head? = some '+' && (unsigned.head?.any fun sign => sign = '+' || sign = '-') then
    none
  else if [".inf", ".Inf", ".INF"].contains (String.ofList unsigned) then some (1.0 / 0.0)
  else if ["-.inf", "-.Inf", "-.INF"].contains (String.ofList characters) then
    some (-1.0 / 0.0)
  else if [".nan", ".NaN", ".NAN"].contains (String.ofList characters) then some (0.0 / 0.0)
  else (Decimal.readFloat? unsigned).filter Float.isFinite

namespace Scalar

/-- What is left out. -/
def absent : Scalar :=
  ⟨none, .plain, ""⟩

/-- Whether the text may be read as of the type that a tag names. -/
def mayBe
    (scalar : Scalar)
    (tag : Tag) :
    Bool :=
  scalar.style = .plain || (scalar.style = .literal && scalar.tag = some tag)

/-- A whole number of so many bits. -/
def natural?
    (scalar : Scalar)
    (bits : Nat) :
    Option Nat :=
  if scalar.mayBe Tag.whole then
    (magnitude? (Text.stripLead ['+'] scalar.text.toList)).filter fun value =>
      value < Nat.pow 2 bits
  else none

/-- A double. -/
def real?
    (scalar : Scalar) :
    Option Float :=
  if scalar.mayBe Tag.real then realOf? scalar.text.toList else none

/-- Whether the text stands for nothing, whatever the tag says. -/
def isEmpty
    (scalar : Scalar) :
    Bool :=
  scalar.style = .plain && (scalar.text.isEmpty || emptyWords.contains scalar.text)

/-- Whether this is an empty value.  The tag of the empty value demands one of
its words; any other tag makes it something. -/
def isNull?
    (scalar : Scalar) :
    Option Bool :=
  match scalar.style, scalar.tag with
  | .plain, none => some scalar.isEmpty
  | .plain, some tag =>
      if tag = Tag.null then
        if emptyWords.contains scalar.text then some true else none
      else some false
  | .quoted, _ | .literal, _ | .folded, _ => some false

/-- One word of a fixed choice: the text or, with nothing behind it, what a tag
of one's own says. -/
def word?
    (scalar : Scalar) :
    Option String :=
  match scalar.tag.bind Tag.word? with
  | some word => if scalar.isEmpty then some word else none
  | none => some scalar.text

end Scalar

end Yaml
end WorkMarket
