import WorkMarket.Text.Yaml.Spot
import WorkMarket.Text.Yaml.Token

/-!
# Names, tags and directives

A value may be given a name, by which it is meant again later, and a tag, which
is written out or shortened by a handle.  Directives before a document tell the
version of YAML and introduce handles.
-/

namespace WorkMarket
namespace Yaml

/-- Whether a character may occur in a name. -/
def isNameChar
    (character : Char) :
    Bool :=
  character.isAlphanum || character = '_' || character = '-'

/-- The name that comes next. -/
def nameAt
    (spot : Spot) :
    List Char :=
  spot.rest.takeWhile isNameChar

/-- Read the name of a value behind its sign. -/
def anchor?
    (spot : Spot) :
    Option (String × Spot) :=
  let name := nameAt spot
  let after := spot.behind name
  let ends :=
    endsWord after.rest ||
      after.rest.head?.any (['?', ':', ',', ']', '\x7d', '%', '@', '\x60'].contains ·)
  if !name.isEmpty && ends then some (String.ofList name, after) else none

/-! ## Tags -/

/-- The signs that may occur in a tag beside letters and digits. -/
def tagSigns : List Char :=
  [';', '/', '?', ':', '@', '&', '=', '+', '$', '.', '%', '!', '~', '*', '\'', '(', ')']

/-- Whether a character may occur in a tag, which is complete or shortened. -/
def isTagChar
    (complete : Bool)
    (character : Char) :
    Bool :=
  isNameChar character || tagSigns.contains character ||
    (complete && [',', '[', ']'].contains character)

/-- How many bytes follow the first byte of a character in UTF-8. -/
def following?
    (first : Nat) :
    Option Nat :=
  if first < 0x80 then some 0
  else if first / 0x20 = 6 then some 1
  else if first / 0x10 = 14 then some 2
  else if first / 0x08 = 30 then some 3
  else none

/-- Read the bytes of a tag, which may be written by their numbers; so many of
them must still follow within a character.  Answers also with the rest of the
text. -/
def tagBytes?
    (complete : Bool) :
    (pending : Nat) → List Char → Option (Tag × List Char)
  | 0, [] => some ([], [])
  | _ + 1, [] => none
  | pending, '%' :: high :: low :: rest => do
      let high ← Text.hexValue? high
      let low ← Text.hexValue? low
      let byte := 16 * high + low
      let next ←
        match pending with
        | 0 => following? byte
        | pending + 1 => if byte / 0x40 = 2 then some pending else none
      let (bytes, rest) ← tagBytes? complete next rest
      return (UInt8.ofNat byte :: bytes, rest)
  | _ + 1, _ :: _ => none
  | 0, next :: rest =>
      if next = '%' then none
      else if isTagChar complete next then
        (tagBytes? complete 0 rest).map fun (bytes, rest) =>
          (UInt8.ofNat next.toNat :: bytes, rest)
      else some ([], next :: rest)

/-- Read the bytes of a tag.  A byte of number zero ends it. -/
def tagText?
    (complete : Bool)
    (spot : Spot) :
    Option (Tag × Spot) :=
  (tagBytes? complete 0 spot.rest).map fun (bytes, rest) =>
    (bytes.takeWhile (· ≠ 0), spot.drop (spot.rest.length - rest.length))

/-- The handle that comes next: a name between two marks or behind one. -/
def handleAt
    (spot : Spot) :
    List Char :=
  let name := nameAt (spot.drop 1)
  let after := (spot.drop (name.length + 1)).rest
  '!' :: (name ++ if after.head? = some '!' then ['!'] else [])

/-- Whether a handle is closed by a second mark. -/
def isClosedHandle
    (handle : List Char) :
    Bool :=
  1 < handle.length && handle.getLast? = some '!'

/-- Read a complete tag, which stands between angle brackets behind a mark. -/
def completeTag?
    (spot : Spot) :
    Option ((List Char × Tag) × Spot) := do
  let start := spot.drop 2
  let (text, after) ← tagText? true start
  if after.column = start.column || after.rest.head? ≠ some '>' then none
  else some (([], text), after.drop 1)

/-- Read a shortened tag.  A mark alone is a tag of its own. -/
def shortTag?
    (spot : Spot) :
    Option ((List Char × Tag) × Spot) := do
  let handle := handleAt spot
  let start := spot.behind handle
  let (text, after) ← tagText? false start
  if isClosedHandle handle then
    if after.column = start.column then none else some ((handle, text), after)
  else
    let text := Text.utf8Chars (handle.drop 1) ++ text
    some (if text.isEmpty then ([], Text.utf8Chars ['!']) else (['!'], text), after)

/-- Read a tag, behind which a word must end. -/
def tag?
    (inFlow : Bool)
    (spot : Spot) :
    Option ((List Char × Tag) × Spot) :=
  let found := if spot.rest.take 2 = ['!', '<'] then completeTag? spot else shortTag? spot
  found.filter fun (_, after) =>
    endsWord after.rest || (inFlow && after.rest.head? = some ',')

/-! ## Directives -/

/-- Read a part of a version, which has at most nine digits. -/
def versionPart?
    (spot : Spot) :
    Option (Nat × Spot) :=
  let digits := spot.rest.takeWhile Char.isDigit
  if digits.isEmpty || 9 < digits.length then none
  else
    (Text.numberOf? Text.decimalValue? 10 digits).map fun number => (number, spot.behind digits)

/-- Read a version. -/
def version?
    (spot : Spot) :
    Option (Token × Spot) := do
  let (major, after) ← versionPart? (spot.dropWhile isBlank)
  if after.rest.head? = some '.' then
    let (minor, after) ← versionPart? (after.drop 1)
    return (.version major minor, after)
  else none

/-- Read a handle and what it stands for. -/
def shorthand?
    (spot : Spot) :
    Option (Token × Spot) := do
  let spot := spot.dropWhile isBlank
  let handle := handleAt spot
  let after := spot.behind handle
  let start := after.dropWhile isBlank
  let isHandle :=
    spot.rest.head? = some '!' && (handle = ['!'] || isClosedHandle handle) &&
      after.rest.head?.any isBlank
  if isHandle then
    let (lead, after) ← tagText? true start
    if after.column = start.column || !endsWord after.rest then none
    else some (.shorthand handle lead, after)
  else none

/-- Read a directive and the rest of its line. -/
def directive?
    (spot : Spot) :
    Option (Token × Spot) := do
  let name := nameAt (spot.drop 1)
  let behind := spot.drop (name.length + 1)
  if !endsWord behind.rest then none
  else
    let (token, after) ←
      if name = ['Y', 'A', 'M', 'L'] then version? behind
      else if name = ['T', 'A', 'G'] then shorthand? behind
      else none
    let after := after.dropWhile isBlank
    let after :=
      if after.rest.head? = some '#' then after.dropWhile fun next => !isBreak next else after
    if after.rest.head?.all isBreak then some (token, after.nextLine) else none

end Yaml
end WorkMarket
