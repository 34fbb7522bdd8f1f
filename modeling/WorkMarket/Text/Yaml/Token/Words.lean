import WorkMarket.Text.Yaml.Spot

/-!
# Plain and quoted scalars

Within a plain scalar and between quotes, a line break together with the blanks
around it stands for one blank, and each further one for itself.  Characters
that are already read are kept in reverse.
-/

namespace WorkMarket
namespace Yaml

/-- What stands between two words of a scalar. -/
structure Pause where
  /-- The blanks before the first line break. -/
  blanks : List Char
  /-- Whether a line has ended. -/
  broken : Bool
  /-- The first line break, unless it has no meaning. -/
  first : List Char
  /-- Further line breaks. -/
  others : List Char

namespace Pause

/-- Nothing between two words. -/
def nothing : Pause :=
  ⟨[], false, [], []⟩

/-- A line break without meaning. -/
def join : Pause :=
  ⟨[], true, [], []⟩

/-- One more blank, which has no meaning at the start of a line. -/
def addBlank
    (pause : Pause)
    (blank : Char) :
    Pause :=
  if pause.broken then pause else { pause with blanks := pause.blanks ++ [blank] }

/-- One more line break. -/
def addBreak
    (pause : Pause)
    (lineBreak : Char) :
    Pause :=
  if pause.broken then { pause with others := pause.others ++ [lineBreak] }
  else ⟨[], true, [lineBreak], []⟩

/-- The characters that a pause stands for.  Only a common line break is
folded. -/
def characters
    (pause : Pause) :
    List Char :=
  if !pause.broken then pause.blanks
  else if pause.first = ['\n'] then
    if pause.others.isEmpty then [' '] else pause.others
  else pause.first ++ pause.others

end Pause

/-- Pass over blanks and line breaks that come next.  Where columns count, no
tab may stand left of the margin at the start of a line. -/
def pauseFrom?
    (margin : Nat) :
    Pause → (line column offset : Nat) → List Char → Option (Pause × Spot)
  | pause, line, column, offset, [] => some (pause, ⟨line, column, offset, []⟩)
  | pause, line, column, offset, next :: rest =>
      if isBreak next then pauseFrom? margin (pause.addBreak next) (line + 1) 0 0 rest
      else if next = '\t' && pause.broken && column < margin then none
      else if isBlank next then
        pauseFrom? margin (pause.addBlank next) line (column + 1) (offset + 1) rest
      else some (pause, ⟨line, column, offset, next :: rest⟩)

/-- Pass over blanks and line breaks at a place. -/
def pause?
    (margin : Nat)
    (pause : Pause)
    (spot : Spot) :
    Option (Pause × Spot) :=
  pauseFrom? margin pause spot.line spot.column spot.offset spot.rest

/-! ## Plain scalars -/

/-- Whether a character is a bracket or comma, which no plain scalar between
brackets can hold. -/
def isFlowSign
    (character : Char) :
    Bool :=
  [',', '[', ']', '\x7b', '\x7d'].contains character

/-- The signs with which no plain scalar can begin. -/
def startSigns : List Char :=
  ['#', '&', '*', '!', '|', '>', '\'', '"', '%', '@', '\x60']

/-- Whether a plain scalar can begin so. -/
def beginsPlain
    (inFlow : Bool) :
    List Char → Bool
  | [] => false
  | first :: rest =>
      if first = '-' then !endsWord rest
      else if first = '?' || first = ':' then !inFlow && !endsWord rest
      else !endsWord [first] && !isFlowSign first && !startSigns.contains first

/-- The characters up to the end of a word of a plain scalar.  Between
brackets a colon must not stand before one of their signs. -/
def plainWord?
    (inFlow : Bool) :
    (done characters : List Char) → Option (List Char)
  | done, [] => some done.reverse
  | done, next :: rest =>
      if endsWord [next] || (next = ':' && endsWord rest) then some done.reverse
      else if inFlow && next = ':' &&
          rest.head?.any (fun sign => isFlowSign sign || sign = '?') then
        none
      else if inFlow && isFlowSign next then some done.reverse
      else plainWord? inFlow (next :: done) rest

/-- Read words of a plain scalar onto those already read; tells also whether a
line has ended behind the last. -/
def plainWords?
    (inFlow : Bool)
    (margin : Nat) :
    (steps : Nat) → (done : List Char) → Pause → Spot → Option (List Char × Bool × Spot)
  | 0, _, _, _ => none
  | steps + 1, done, pause, spot =>
      let stopped :=
        spot.isOver || spot.rest.head? = some '#' ||
          (!inFlow && pause.broken && spot.column < margin)
      if stopped then some (done.reverse, pause.broken, spot)
      else
        match plainWord? inFlow [] spot.rest with
        | none => none
        | some [] => some (done.reverse, pause.broken, spot)
        | some word =>
            let after := spot.behind word
            match pause? margin .nothing after with
            | none => none
            | some (next, spot) =>
                plainWords? inFlow margin steps
                  (word.reverseAux (pause.characters.reverseAux done)) next spot

/-- Read a plain scalar, whose further lines must not stand left of the
margin. -/
def plain?
    (inFlow : Bool)
    (margin : Nat)
    (spot : Spot) :
    Option (List Char × Bool × Spot) :=
  if beginsPlain inFlow spot.rest then
    plainWords? inFlow margin (spot.rest.length + 1) [] .nothing spot
  else none

/-! ## Quoted scalars -/

/-- The character of so many hexadecimal digits. -/
def coded?
    (digits : Nat)
    (characters : List Char) :
    Option (Char × Nat) :=
  if (characters.take digits).length < digits then none
  else
    match Text.numberOf? Text.hexValue? 16 (characters.take digits) with
    | some code => if code.isValidChar then some (Char.ofNat code, digits + 1) else none
    | none => none

/-- The characters that single letters stand for behind a backslash. -/
def escapes : List (Char × Char) :=
  [('0', '\x00'), ('a', '\x07'), ('b', '\x08'), ('t', '\t'), ('\t', '\t'), ('n', '\n'),
    ('v', '\x0b'), ('f', '\x0c'), ('r', '\r'), ('e', '\x1b'), (' ', ' '), ('"', '"'),
    ('/', '/'), ('\\', '\\'), ('N', '\u0085'), ('_', '\u00a0'), ('L', '\u2028'),
    ('P', '\u2029')]

/-- The character that is meant behind a backslash and how many characters
that takes. -/
def escape?
    (characters : List Char) :
    Option (Char × Nat) :=
  match characters with
  | 'x' :: rest => coded? 2 rest
  | 'u' :: rest => coded? 4 rest
  | 'U' :: rest => coded? 8 rest
  | letter :: _ => (escapes.lookup letter).map fun meant => (meant, 1)
  | [] => none

/-- Read between quotes up to the closing one, onto what is already read. -/
def quotedBody?
    (quote : Char) :
    (steps : Nat) → (done : List Char) → Spot → Option (List Char × Spot)
  | 0, _, _ => none
  | steps + 1, done, spot =>
      if spot.isOver then none
      else
        match spot.rest with
        | [] => none
        | first :: rest =>
            if first = quote then
              if quote = '\'' && rest.head? = some quote then
                quotedBody? quote steps (quote :: done) (spot.drop 2)
              else some (done.reverse, spot.drop 1)
            else if first = '\\' && quote = '"' then
              if rest.head?.any isBreak then
                match pause? 0 .join (spot.drop 1).nextLine with
                | some (pause, spot) =>
                    quotedBody? quote steps (pause.characters.reverseAux done) spot
                | none => none
              else
                match escape? rest with
                | some (meant, count) =>
                    quotedBody? quote steps (meant :: done) (spot.drop (count + 1))
                | none => none
            else if endsWord [first] then
              match pause? 0 .nothing spot with
              | some (pause, spot) =>
                  quotedBody? quote steps (pause.characters.reverseAux done) spot
              | none => none
            else quotedBody? quote steps (first :: done) (spot.drop 1)

/-- Read a quoted scalar. -/
def quoted?
    (spot : Spot) :
    Option (List Char × Spot) :=
  match spot.rest with
  | '"' :: _ => quotedBody? '"' (spot.rest.length + 1) [] (spot.drop 1)
  | '\'' :: _ => quotedBody? '\'' (spot.rest.length + 1) [] (spot.drop 1)
  | _ => none

end Yaml
end WorkMarket
