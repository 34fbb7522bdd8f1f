import WorkMarket.Text.Utf8

/-!
# Places in a YAML text

Blocks are told apart by the columns in which they begin, and a key must stand
on one line within a number of bytes, so reading keeps the line, the column and
the offset of what comes next.  `Spot.skip` passes over blanks, line breaks and
comments.
-/

namespace WorkMarket
namespace Yaml

/-- Whether a character ends a line. -/
def isBreak
    (character : Char) :
    Bool :=
  character = '\n' || character = '\u2028' || character = '\u2029'

/-- Whether a character is a blank within a line. -/
def isBlank
    (character : Char) :
    Bool :=
  character = ' ' || character = '\t'

/-- Whether a word ends before this text. -/
def endsWord : List Char → Bool
  | [] => true
  | next :: _ => isBlank next || isBreak next

/-- A place in a text. -/
structure Spot where
  line : Nat
  /-- The number of characters before it on its line. -/
  column : Nat
  /-- The number of bytes before it on its line. -/
  offset : Nat
  rest : List Char

namespace Spot

/-- The place behind some characters of the same line that come next. -/
def behind
    (spot : Spot)
    (characters : List Char) :
    Spot :=
  { spot with
    column := spot.column + characters.length
    offset := spot.offset + Text.utf8Length characters
    rest := spot.rest.drop characters.length }

/-- The place behind so many characters of the same line. -/
def drop
    (spot : Spot)
    (count : Nat) :
    Spot :=
  spot.behind (spot.rest.take count)

/-- The place behind all characters of the same line that are accepted. -/
def dropWhile
    (spot : Spot)
    (accepts : Char → Bool) :
    Spot :=
  spot.behind (spot.rest.takeWhile accepts)

/-- The line break that comes next, if there is one. -/
def lineBreak
    (spot : Spot) :
    List Char :=
  (spot.rest.take 1).filter isBreak

/-- The start of the next line, if a line break comes next. -/
def nextLine
    (spot : Spot) :
    Spot :=
  if spot.rest.head?.any isBreak then ⟨spot.line + 1, 0, 0, spot.rest.drop 1⟩ else spot

/-- The start of a text. -/
def start
    (characters : List Char) :
    Spot :=
  ⟨0, 0, 0, characters⟩

/-- Whether three of a sign stand at the start of the line and nothing behind
them, which tells documents apart. -/
def isMark
    (spot : Spot)
    (sign : Char) :
    Bool :=
  spot.column = 0 && spot.rest.take 3 = [sign, sign, sign] && endsWord (spot.rest.drop 3)

/-- Whether the document ends here at the latest. -/
def isOver
    (spot : Spot) :
    Bool :=
  spot.rest.isEmpty || spot.isMark '-' || spot.isMark '.'

/-- Pass over blanks, line breaks and comments, of which one may be open; tells
also whether a block may begin behind them.  Behind a line break a block may
begin, unless brackets are open, and no tab may stand before it.  A mark of the
byte order is a blank at the start of a line. -/
def skipFrom
    (inFlow : Bool) :
    (comment fresh : Bool) → (line column offset : Nat) → List Char → Spot × Bool
  | _, fresh, line, column, offset, [] => (⟨line, column, offset, []⟩, fresh)
  | comment, fresh, line, column, offset, next :: rest =>
      if isBreak next then skipFrom inFlow false (fresh || !inFlow) (line + 1) 0 0 rest
      else if comment || next = '#' then
        skipFrom inFlow true fresh line (column + 1) (offset + next.utf8Size) rest
      else if next = '\ufeff' && column = 0 then
        skipFrom inFlow false fresh line 1 next.utf8Size rest
      else if next = ' ' || (next = '\t' && (inFlow || !fresh)) then
        skipFrom inFlow false fresh line (column + 1) (offset + 1) rest
      else (⟨line, column, offset, next :: rest⟩, fresh)

/-- The place of what comes next, and whether a block may begin there. -/
def skip
    (spot : Spot)
    (inFlow fresh : Bool) :
    Spot × Bool :=
  skipFrom inFlow false fresh spot.line spot.column spot.offset spot.rest

end Spot

end Yaml
end WorkMarket
