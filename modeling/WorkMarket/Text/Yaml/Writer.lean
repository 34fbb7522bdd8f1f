import WorkMarket.Text.Decimal.Style
import WorkMarket.Text.Yaml.Scalar
import WorkMarket.Text.Yaml.Spot

/-!
# Writing YAML texts

A text is written plainly if it then still reads as a text.  Otherwise it goes
between single quotes or, where it holds what only an escape can show, between
double quotes.  Several lines make a block.  The rarer line breaks are written
as they are.
-/

namespace WorkMarket
namespace Yaml

/-- How a text is laid out. -/
inductive Layout where
  | plain
  | singleQuoted
  | doubleQuoted
  /-- A block in which each line break stands for itself. -/
  | literal
deriving DecidableEq

/-- Words that some readers take for true or false. -/
def switchWords : List String :=
  ["y", "Y", "yes", "Yes", "YES", "n", "N", "no", "No", "NO", "on", "On", "ON", "off", "Off",
    "OFF"]

/-- The whole number that a plain text means. -/
def whole?
    (characters : List Char) :
    Option Int :=
  match characters with
  | '-' :: rest => (magnitude? rest).map fun magnitude => -(magnitude : Int)
  | other => (magnitude? (Text.stripLead ['+'] other)).map Int.ofNat

/-- Whether a text would be taken for something else if it was written
plainly. -/
def isAmbiguous
    (text : String) :
    Bool :=
  let characters := text.toList
  text.isEmpty || emptyWords.contains text || truthWords.contains text ||
    switchWords.contains text || isPaddedDigits characters || (realOf? characters).isSome ||
    (whole? characters).any fun value =>
      if value < 0 then value.natAbs ≤ Nat.pow 2 127 else value.natAbs < Nat.pow 2 128

/-- Whether a character can be written without escape. -/
def isPrintable
    (character : Char) :
    Bool :=
  let code := character.toNat
  code = 0x0a || (0x20 ≤ code && code ≤ 0x7e) || (0xa0 ≤ code && code ≤ 0xd7ff) ||
    (0xe000 ≤ code && code ≤ 0xfffd && code ≠ 0xfeff)

/-- The signs that mean something at the start of a plain text. -/
def leadingSigns : List Char :=
  ['#', ',', '[', ']', '\x7b', '\x7d', '&', '*', '!', '|', '>', '\'', '"', '%', '@', '\x60']

/-- Whether a blank or nothing comes first. -/
def isBlankNext
    (characters : List Char) :
    Bool :=
  characters.isEmpty || characters.head? = some ' '

/-- Whether a text starts as only something else than a plain text can. -/
def startsAsSign
    (characters : List Char) :
    Bool :=
  match characters with
  | [] => false
  | first :: rest =>
      leadingSigns.contains first || ((first = '?' || first = '-') && isBlankNext rest) ||
        ['-', '-', '-'].isPrefixOf characters || ['.', '.', '.'].isPrefixOf characters

/-- Whether a text holds a colon before a blank or a hash behind one, which
end a plain text. -/
def holdsSign : List Char → Bool
  | [] => false
  | ' ' :: '#' :: _ => true
  | first :: rest => (first = ':' && isBlankNext rest) || holdsSign rest

/-- Whether two neighbours are of certain kinds. -/
def hasNeighbours
    (isFirst isSecond : Char → Bool) :
    List Char → Bool
  | first :: second :: rest =>
      (isFirst first && isSecond second) || hasNeighbours isFirst isSecond (second :: rest)
  | _ => false

/-- Whether line breaks can be written as they are: all else is printable, and
no blank stands before one. -/
def isLaidOut
    (characters : List Char) :
    Bool :=
  characters.all isPrintable && !hasNeighbours (· = ' ') isBreak characters

/-- Whether a text without line breaks can be written as it is. -/
def isPlain
    (text : String) :
    Bool :=
  let characters := text.toList
  !isAmbiguous text && characters.head? ≠ some ' ' && characters.getLast? ≠ some ' ' &&
    !startsAsSign characters && !holdsSign characters

/-- The layout of a text. -/
def layout
    (text : String) :
    Layout :=
  let characters := text.toList
  if !isLaidOut characters then .doubleQuoted
  else if characters.contains '\n' then
    if characters.getLast? = some ' ' then .doubleQuoted else .literal
  else if characters.any isBreak then
    if hasNeighbours isBreak (· = ' ') characters then .doubleQuoted else .singleQuoted
  else if isPlain text then .plain
  else .singleQuoted

/-- The letters for characters that do not stand for themselves between double
quotes. -/
def escapeLetters : List (Char × Char) :=
  [('\x00', '0'), ('\x07', 'a'), ('\x08', 'b'), ('\t', 't'), ('\n', 'n'), ('\x0b', 'v'),
    ('\x0c', 'f'), ('\r', 'r'), ('\x1b', 'e'), ('"', '"'), ('\\', '\\'), ('\u0085', 'N'),
    ('\u2028', 'L'), ('\u2029', 'P')]

/-- The characters for a character between double quotes. -/
def escapedChars
    (character : Char) :
    List Char :=
  let code := character.toNat
  let coded (letter : Char) (width : Nat) : List Char :=
    '\\' :: letter :: (Text.hexPadded width code).map Char.toUpper
  match escapeLetters.lookup character with
  | some letter => ['\\', letter]
  | none =>
      if isPrintable character then [character]
      else if code ≤ 0xff then coded 'x' 2
      else if code ≤ 0xffff then coded 'u' 4
      else coded 'U' 8

/-- The indentation of lines. -/
def indentation : List Char :=
  [' ', ' ']

/-- Characters in their forms, of which each line behind a break is
indented. -/
def indented
    (form : Char → List Char) :
    (broken : Bool) → List Char → List Char
  | _, [] => []
  | broken, next :: rest =>
      if isBreak next then next :: indented form true rest
      else (if broken then indentation else []) ++ form next ++ indented form false rest

/-- Whether a text ends in a line break. -/
def endsBroken
    (characters : List Char) :
    Bool :=
  characters.getLast?.any isBreak

/-- The sign of a block of lines.  It tells the indentation if the first line
does not, and how many line breaks stand at the end if it is not one. -/
def literalSign
    (characters : List Char) :
    List Char :=
  let startsBlank := characters.head?.any fun first => first = ' ' || isBreak first
  let ending :=
    if !endsBroken characters then ['-']
    else if characters.length = 1 || endsBroken characters.dropLast then ['+']
    else []
  '|' :: (if startsBlank then ['2'] else []) ++ ending

/-- A text between single quotes. -/
def singleQuoted
    (characters : List Char) :
    List Char :=
  let form (next : Char) : List Char := if next = '\'' then ['\'', '\''] else [next]
  '\'' :: indented form false characters ++
    (if endsBroken characters then indentation else []) ++ ['\'']

/-- The form of a text as the value of a key. -/
def writeText
    (text : String) :
    String :=
  let characters := text.toList
  match layout text with
  | .plain => text
  | .singleQuoted => String.ofList (singleQuoted characters)
  | .doubleQuoted => String.ofList ('"' :: characters.flatMap escapedChars ++ ['"'])
  | .literal =>
      let body := indented (fun next => [next]) true characters
      String.ofList (literalSign characters ++ '\n' :: body)

/-- The form of a double. -/
def writeReal
    (value : Float) :
    String :=
  Decimal.Style.yaml.write value

/-- A mapping of names to values that are already written.  A block may end its
last line itself. -/
def writeMembers
    (members : List (String × String)) :
    String :=
  members.foldl
    (fun text member =>
      text ++ member.1 ++ ": " ++ member.2 ++ if endsBroken member.2.toList then "" else "\n")
    ""

end Yaml
end WorkMarket
