import WorkMarket.Text.Yaml.Spot

/-!
# Scalars in blocks of lines

A scalar may stand in lines of its own, indented alike.  In a literal block
each line break stands for itself; in a folded one a line break between two
lines that begin with no blank joins them.
-/

namespace WorkMarket
namespace Yaml

/-- What happens to the line breaks at the end of a block. -/
inductive Ending where
  /-- One is kept. -/
  | clip
  /-- None is kept. -/
  | strip
  /-- All are kept. -/
  | keep

/-- How a block of lines is read. -/
structure BlockStyle where
  ending : Ending
  /-- How far the lines are indented, if that is said. -/
  indent : Option Nat

namespace BlockStyle

/-- Read what follows the sign of a block on its line, which is at most an
ending and an indentation. -/
def read?
    (marks : List Char) :
    Option BlockStyle :=
  let endingOf? (mark : Char) : Option Ending :=
    if mark = '+' then some .keep else if mark = '-' then some .strip else none
  let indentOf? (mark : Char) : Option Nat :=
    (Text.decimalValue? mark).filter (0 < ·)
  match marks with
  | [] => some ⟨.clip, none⟩
  | [mark] =>
      match endingOf? mark, indentOf? mark with
      | some ending, _ => some ⟨ending, none⟩
      | _, some indent => some ⟨.clip, some indent⟩
      | _, _ => none
  | [first, second] =>
      match endingOf? first, indentOf? first, endingOf? second, indentOf? second with
      | some ending, _, _, some indent => some ⟨ending, some indent⟩
      | _, some indent, some ending, _ => some ⟨ending, some indent⟩
      | _, _, _, _ => none
  | _ => none

end BlockStyle

/-- Pass over blank lines that come next and the indentation behind them, from
a deepest column and line breaks that were found before.  No tab may stand in
the indentation. -/
def blankLinesFrom?
    (indent : Option Nat) :
    (deepest : Nat) → (breaks : List Char) → (line column offset : Nat) → List Char →
      Option (Nat × List Char × Spot)
  | deepest, breaks, line, column, offset, [] =>
      some (max deepest column, breaks, ⟨line, column, offset, []⟩)
  | deepest, breaks, line, column, offset, next :: rest =>
      let inMargin := indent.all (column < ·)
      let deepest := max deepest column
      if isBreak next then
        blankLinesFrom? indent deepest (breaks ++ [next]) (line + 1) 0 0 rest
      else if inMargin && next = ' ' then
        blankLinesFrom? indent deepest breaks line (column + 1) (offset + 1) rest
      else if inMargin && next = '\t' then none
      else some (deepest, breaks, ⟨line, column, offset, next :: rest⟩)

/-- Pass over blank lines at a place and the indentation behind them; answers
also with the deepest column and the line breaks. -/
def blankLines?
    (indent : Option Nat)
    (spot : Spot) :
    Option (Nat × List Char × Spot) :=
  blankLinesFrom? indent 0 [] spot.line spot.column spot.offset spot.rest

/-- What a block holds so far. -/
structure BlockText where
  /-- The characters in reverse. -/
  done : List Char
  /-- The line break behind the last line, if it has one. -/
  first : List Char
  /-- The blank lines behind it. -/
  others : List Char
  /-- Whether the last line began with a blank. -/
  afterBlank : Bool

namespace BlockText

/-- What stands between the last line of a block and the next.  Only a common
line break is folded. -/
def joint
    (text : BlockText)
    (literal nextBlank : Bool) :
    List Char :=
  if literal || text.first ≠ ['\n'] || text.afterBlank || nextBlank then
    text.first ++ text.others
  else if text.others.isEmpty then [' ']
  else text.others

/-- What a finished block stands for. -/
def finish
    (text : BlockText)
    (ending : Ending) :
    List Char :=
  text.done.reverse ++
    match ending with
    | .strip => []
    | .clip => text.first
    | .keep => text.first ++ text.others

end BlockText

/-- Read the lines of a block that stand at its indentation. -/
def blockLines?
    (literal : Bool)
    (indent : Nat) :
    (steps : Nat) → BlockText → Spot → Option (BlockText × Spot)
  | 0, _, _ => none
  | steps + 1, text, spot =>
      if spot.column = indent && !spot.rest.isEmpty then
        let blank := spot.rest.head?.any isBlank
        let line := spot.rest.takeWhile fun next => !isBreak next
        let done := line.reverseAux ((text.joint literal blank).reverseAux text.done)
        let after := spot.behind line
        match blankLines? (some indent) after.nextLine with
        | some (_, breaks, next) =>
            blockLines? literal indent steps ⟨done, after.lineBreak, breaks, blank⟩ next
        | none => none
      else some (text, spot)

/-- The start of the line behind this one, of which only blanks and a comment
may be left. -/
def nextLine?
    (spot : Spot) :
    Option Spot :=
  let spot := spot.dropWhile isBlank
  let spot :=
    if spot.rest.head? = some '#' then spot.dropWhile fun next => !isBreak next else spot
  if spot.rest.head?.all isBreak then some spot.nextLine else none

/-- Read a block of lines behind its sign, which must not stand left of the
margin.  Without a word about it, the first line that is not blank sets the
indentation. -/
def block?
    (literal : Bool)
    (margin : Nat)
    (spot : Spot) :
    Option (List Char × Spot) := do
  let marks := spot.rest.takeWhile fun mark => !endsWord [mark] && mark ≠ '#'
  let style ← BlockStyle.read? marks
  let said := style.indent.map (margin - 1 + ·)
  let body ← nextLine? (spot.behind marks)
  let (deepest, breaks, first) ← blankLines? said body
  let indent := said.getD (max deepest (max margin 1))
  let (text, after) ←
    blockLines? literal indent (body.rest.length + 1) ⟨[], [], breaks, false⟩ first
  return (text.finish style.ending, after)

end Yaml
end WorkMarket
