import WorkMarket.Text.Decimal.Style

/-!
# JSON values and their text

A JSON text is a tree of values.  Objects keep their members in order and may
repeat a name.  Whole numbers that fit sixty-four bits are told apart from
doubles.  `Json.compact` and `Json.pretty` write a value.
-/

namespace WorkMarket

/-- A JSON value. -/
inductive Json where
  | null
  | boolean (value : Bool)
  /-- A whole number written without point and exponent. -/
  | integer (value : Int)
  /-- Any other number. -/
  | real (value : Float)
  | string (value : String)
  | array (elements : List Json)
  | object (members : List (String × Json))
  /-- A text with half a character in it or an object with such a name, which
  can only be passed over. -/
  | garbled
deriving Inhabited

namespace Json

/-- A character inside a quoted text. -/
def escaped
    (character : Char) :
    List Char :=
  match character with
  | '"' => ['\\', '"']
  | '\\' => ['\\', '\\']
  | '\n' => ['\\', 'n']
  | '\r' => ['\\', 'r']
  | '\t' => ['\\', 't']
  | '\x08' => ['\\', 'b']
  | '\x0c' => ['\\', 'f']
  | other =>
      if other.toNat < 0x20 then ['\\', 'u'] ++ Text.hexPadded 4 other.toNat else [other]

/-- A quoted text. -/
def quoted
    (text : String) :
    String :=
  "\"" ++ String.ofList (text.toList.flatMap escaped) ++ "\""

/-- The text of a value that has no parts. -/
def leafText : Json → String
  | boolean true => "true"
  | boolean false => "false"
  | integer value => toString value
  | real value => Decimal.Style.json.write value
  | string value => quoted value
  | null | array _ | object _ | garbled => "null"

mutual

/-- The text of a value without any blanks. -/
def compact : Json → String
  | array elements => "[" ++ Text.joined "," (compactElements elements) ++ "]"
  | object members => "\x7b" ++ Text.joined "," (compactMembers members) ++ "\x7d"
  | leaf => leaf.leafText

/-- The texts of the elements of an array. -/
def compactElements : List Json → List String
  | [] => []
  | first :: rest => first.compact :: compactElements rest

/-- The texts of the members of an object. -/
def compactMembers : List (String × Json) → List String
  | [] => []
  | (name, value) :: rest => (quoted name ++ ":" ++ value.compact) :: compactMembers rest

end

/-- A line break and the margin of the next line. -/
def lineBreak
    (depth : Nat) :
    String :=
  String.ofList ('\n' :: List.replicate (2 * depth) ' ')

/-- Parts between brackets, each on a line of its own. -/
def bracketed
    (opening closing : String)
    (depth : Nat)
    (parts : List String) :
    String :=
  if parts.isEmpty then opening ++ closing
  else
    opening ++ lineBreak (depth + 1) ++ Text.joined ("," ++ lineBreak (depth + 1)) parts ++
      lineBreak depth ++ closing

mutual

/-- The text of a value at some depth, one part to a line. -/
def prettyAt
    (depth : Nat) :
    Json → String
  | array elements => bracketed "[" "]" depth (prettyElements (depth + 1) elements)
  | object members => bracketed "\x7b" "\x7d" depth (prettyMembers (depth + 1) members)
  | leaf => leaf.leafText

/-- The texts of the elements of an array. -/
def prettyElements
    (depth : Nat) :
    List Json → List String
  | [] => []
  | first :: rest => first.prettyAt depth :: prettyElements depth rest

/-- The texts of the members of an object. -/
def prettyMembers
    (depth : Nat) :
    List (String × Json) → List String
  | [] => []
  | (name, value) :: rest =>
      (quoted name ++ ": " ++ value.prettyAt depth) :: prettyMembers depth rest

end

/-- The text of a value, one part to a line. -/
def pretty
    (value : Json) :
    String :=
  value.prettyAt 0

end Json

end WorkMarket
