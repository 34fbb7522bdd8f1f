import WorkMarket.Text.Yaml.Token
import WorkMarket.Text.Yaml.Token.Block
import WorkMarket.Text.Yaml.Token.Property
import WorkMarket.Text.Yaml.Token.Words

/-!
# Telling tokens apart

`Token.scan?` divides a text into tokens.  A block begins where something
stands right of the block around it, and ends where something stands left of
it.  Whether a value is a key shows only at the colon behind it, so the place
where a key may have begun is kept: the token for the key, and for the mapping
if the key is its first, are put in there.
-/

namespace WorkMarket
namespace Yaml

/-- A place where a key may have begun. -/
structure Candidate where
  /-- The number of tokens before it. -/
  number : Nat
  spot : Spot
  /-- Whether nothing but a key can stand there. -/
  required : Bool

/-- The most bytes a key may take. -/
def longestKey : Nat :=
  1024

/-- How far a text is divided. -/
structure Scanner where
  spot : Spot
  /-- Whether a block or key may begin here. -/
  fresh : Bool
  /-- The least column for what belongs to the innermost block. -/
  margin : Nat
  /-- The margins of the blocks around it. -/
  outer : List Nat
  candidate : Option Candidate
  /-- The candidates before each open bracket, the innermost first. -/
  suspended : List (Option Candidate)
  /-- The number of tokens. -/
  count : Nat
  /-- The tokens, the latest first. -/
  tokens : List Token

namespace Scanner

/-- The beginning of a text. -/
def start
    (characters : List Char) :
    Scanner :=
  ⟨Spot.start characters, true, 0, [], none, [], 0, []⟩

/-- Whether brackets are open. -/
def inFlow
    (scanner : Scanner) :
    Bool :=
  !scanner.suspended.isEmpty

/-- Go on behind so many characters. -/
def pass
    (scanner : Scanner)
    (count : Nat) :
    Scanner :=
  { scanner with spot := scanner.spot.drop count }

/-- Add a token. -/
def emit
    (scanner : Scanner)
    (token : Token) :
    Scanner :=
  { scanner with count := scanner.count + 1, tokens := token :: scanner.tokens }

/-- Put in a token behind so many others. -/
def emitAt
    (scanner : Scanner)
    (number : Nat)
    (token : Token) :
    Scanner :=
  let later := scanner.count - number
  { scanner with
    count := scanner.count + 1
    tokens := scanner.tokens.take later ++ token :: scanner.tokens.drop later }

/-- The blocks that go on at a margin, and how many others end. -/
def unwind
    (margin : Nat) :
    (innermost : Nat) → (outer : List Nat) → (ended : Nat) → Nat × List Nat × Nat
  | innermost, [], ended => (innermost, [], ended)
  | innermost, next :: outer, ended =>
      if innermost ≤ margin then (innermost, next :: outer, ended)
      else unwind margin next outer (ended + 1)

/-- End all blocks that do not go on at a margin. -/
def endBlocks
    (scanner : Scanner)
    (margin : Nat) :
    Scanner :=
  if scanner.inFlow then scanner
  else
    let (innermost, outer, ended) := unwind margin scanner.margin scanner.outer 0
    { scanner with
      margin := innermost
      outer := outer
      count := scanner.count + ended
      tokens := List.replicate ended .blockEnd ++ scanner.tokens }

/-- Begin a block behind so many tokens, unless one has begun in this
column. -/
def beginBlock
    (scanner : Scanner)
    (number column : Nat)
    (token : Token) :
    Scanner :=
  if scanner.inFlow || column < scanner.margin then scanner
  else
    { scanner.emitAt number token with
      margin := column + 1
      outer := scanner.margin :: scanner.outer }

/-- Begin a block here. -/
def beginBlockHere
    (scanner : Scanner)
    (token : Token) :
    Scanner :=
  scanner.beginBlock scanner.count scanner.spot.column token

/-- Give up the candidate, which must not be required. -/
def dropCandidate?
    (scanner : Scanner) :
    Option Scanner :=
  if scanner.candidate.any Candidate.required then none
  else some { scanner with candidate := none }

/-- Give up the candidate if it is on another line or too far back. -/
def dropStale?
    (scanner : Scanner) :
    Option Scanner :=
  let isStale (candidate : Candidate) : Bool :=
    candidate.spot.line ≠ scanner.spot.line ||
      candidate.spot.offset + longestKey < scanner.spot.offset
  if scanner.candidate.any isStale then scanner.dropCandidate? else some scanner

/-- Keep this place as a candidate, if a key may begin here. -/
def keepCandidate?
    (scanner : Scanner) :
    Option Scanner :=
  if scanner.fresh then
    scanner.dropCandidate?.map fun dropped =>
      { dropped with
        candidate := some ⟨scanner.count, scanner.spot,
          !scanner.inFlow && scanner.margin = scanner.spot.column + 1⟩ }
  else some scanner

/-! ## One token after the other -/

/-- Read a token that stands between documents. -/
def between?
    (scanner : Scanner)
    (read : Spot → Option (Token × Spot)) :
    Option Scanner := do
  let scanner ← (scanner.endBlocks 0).dropCandidate?
  let (token, after) ← read scanner.spot
  return { scanner with spot := after, fresh := false }.emit token

/-- Read an opening bracket. -/
def opening?
    (scanner : Scanner)
    (token : Token) :
    Option Scanner := do
  let scanner ← scanner.keepCandidate?
  return ({ scanner with
    fresh := true
    candidate := none
    suspended := scanner.candidate :: scanner.suspended }.pass 1).emit token

/-- Read a closing bracket. -/
def closing?
    (scanner : Scanner)
    (token : Token) :
    Option Scanner := do
  let scanner ← scanner.dropCandidate?
  let closed :=
    match scanner.suspended with
    | [] => scanner
    | candidate :: suspended =>
        { scanner with candidate := candidate, suspended := suspended }
  return ({ closed with fresh := false }.pass 1).emit token

/-- Read a comma. -/
def comma?
    (scanner : Scanner) :
    Option Scanner := do
  let scanner ← scanner.dropCandidate?
  return ({ scanner with fresh := true }.pass 1).emit .comma

/-- Read the dash of an element. -/
def entry?
    (scanner : Scanner) :
    Option Scanner := do
  if scanner.inFlow || scanner.fresh then
    let scanner ← (scanner.beginBlockHere .blockSequence).dropCandidate?
    return ({ scanner with fresh := true }.pass 1).emit .entry
  else none

/-- Read the sign of a key. -/
def key?
    (scanner : Scanner) :
    Option Scanner := do
  if scanner.inFlow || scanner.fresh then
    let scanner ← (scanner.beginBlockHere .blockMapping).dropCandidate?
    return ({ scanner with fresh := !scanner.inFlow }.pass 1).emit .key
  else none

/-- Read the colon before a value.  If a key may have begun, it has. -/
def value?
    (scanner : Scanner) :
    Option Scanner :=
  match scanner.candidate with
  | some candidate =>
      let keyed := (scanner.emitAt candidate.number .key).beginBlock candidate.number
        candidate.spot.column .blockMapping
      some (({ keyed with candidate := none, fresh := false }.pass 1).emit .value)
  | none =>
      if scanner.inFlow || scanner.fresh then
        let begun := scanner.beginBlockHere .blockMapping
        some (({ begun with fresh := !scanner.inFlow }.pass 1).emit .value)
      else none

/-- Read something with which a key may begin. -/
def part?
    (scanner : Scanner)
    (read : Spot → Option (Token × Spot)) :
    Option Scanner := do
  let scanner ← scanner.keepCandidate?
  let (token, after) ← read scanner.spot
  return { scanner with spot := after, fresh := false }.emit token

/-- Read a scalar in a block of lines. -/
def block?
    (scanner : Scanner)
    (literal : Bool) :
    Option Scanner := do
  let scanner ← scanner.dropCandidate?
  let (text, after) ← Yaml.block? literal scanner.margin (scanner.spot.drop 1)
  let style := if literal then ScalarStyle.literal else .folded
  return { scanner with spot := after, fresh := true }.emit (.scalar style (String.ofList text))

/-- Read a plain scalar.  Behind the end of its line a key may begin. -/
def plain?
    (scanner : Scanner) :
    Option Scanner := do
  let scanner ← scanner.keepCandidate?
  let (text, broken, after) ← Yaml.plain? scanner.inFlow scanner.margin scanner.spot
  return { scanner with spot := after, fresh := broken }.emit (.scalar .plain (String.ofList text))

/-- Read the token that begins with a character. -/
def next?
    (scanner : Scanner)
    (first : Char)
    (rest : List Char) :
    Option Scanner :=
  let inFlow := scanner.inFlow
  let stands := endsWord rest
  let named (token : String → Token) (spot : Spot) :=
    (anchor? (spot.drop 1)).map fun (name, after) => (token name, after)
  if scanner.spot.column = 0 && first = '%' then scanner.between? directive?
  else if scanner.spot.isMark '-' then
    scanner.between? fun spot => some (.documentStart, spot.drop 3)
  else if scanner.spot.isMark '.' then
    scanner.between? fun spot => some (.documentEnd, spot.drop 3)
  else if first = '[' then scanner.opening? .openBracket
  else if first = '\x7b' then scanner.opening? .openBrace
  else if first = ']' then scanner.closing? .closeBracket
  else if first = '\x7d' then scanner.closing? .closeBrace
  else if first = ',' then scanner.comma?
  else if first = '-' && stands then scanner.entry?
  else if first = '?' && (inFlow || stands) then scanner.key?
  else if first = ':' && (inFlow || stands) then scanner.value?
  else if first = '*' then scanner.part? (named .alias)
  else if first = '&' then scanner.part? (named .anchor)
  else if first = '!' then
    scanner.part? fun spot =>
      (tag? inFlow spot).map fun ((handle, text), after) => (.tag handle text, after)
  else if (first = '|' || first = '>') && !inFlow then scanner.block? (first = '|')
  else if first = '\'' || first = '"' then
    scanner.part? fun spot =>
      (quoted? spot).map fun (text, after) => (.scalar .quoted (String.ofList text), after)
  else scanner.plain?

/-- Divide a text up to its end. -/
def run : (steps : Nat) → Scanner → Option (List Token)
  | 0, _ => none
  | steps + 1, scanner => do
      let (spot, fresh) := scanner.spot.skip scanner.inFlow scanner.fresh
      let scanner ← { scanner with spot := spot, fresh := fresh }.dropStale?
      match spot.rest with
      | [] => (scanner.endBlocks 0).dropCandidate?.map fun ended => ended.tokens.reverse
      | first :: rest =>
          run steps (← (scanner.endBlocks (spot.column + 1)).next? first rest)

end Scanner

/-- The tokens of a text.  Every token takes a character. -/
def Token.scan?
    (characters : List Char) :
    Option (List Token) :=
  Scanner.run (characters.length + 1) (Scanner.start characters)

end Yaml
end WorkMarket
