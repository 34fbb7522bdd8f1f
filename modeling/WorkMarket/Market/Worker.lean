import WorkMarket.Work.Job

/-!
# Workers

A worker is known by a number of 128 bits, written as a UUID.  A worker that
waits for work brings some hashpower; an assignment puts it on a puzzle.
-/

namespace WorkMarket

/-- The number of a connected worker. -/
structure WorkerId where
  number : BitVec 128
deriving DecidableEq, Inhabited

namespace WorkerId

/-- The lengths of the groups that hyphens separate. -/
def groups : List Nat :=
  [8, 4, 4, 4, 12]

/-- Cut digits into groups. -/
def cut : List Nat → List Char → List (List Char)
  | [], _ => []
  | length :: lengths, digits => digits.take length :: cut lengths (digits.drop length)

/-- The hyphenated text of a number. -/
def text
    (worker : WorkerId) :
    String :=
  Text.joined "-"
    ((cut groups (Text.hexPadded 32 worker.number.toNat)).map String.ofList)

/-- Read thirty-two digits. -/
def ofDigits?
    (digits : List Char) :
    Option WorkerId :=
  if digits.length = 32 then
    (Text.numberOf? Text.hexValue? 16 digits).map fun number => ⟨BitVec.ofNat 128 number⟩
  else none

/-- Read hyphenated digits. -/
def ofHyphenated?
    (characters : List Char) :
    Option WorkerId :=
  let hyphens := [8, 13, 18, 23]
  if characters.length = 36 ∧ hyphens.all fun place => characters[place]? = some '-' then
    ofDigits? (characters.filter (· ≠ '-'))
  else none

/-- Read a number: digits with or without hyphens, in braces, or behind
`urn:uuid:`. -/
def ofText?
    (text : String) :
    Option WorkerId :=
  let characters := text.toList
  match characters.length with
  | 32 => ofDigits? characters
  | 38 =>
      if characters.head? = some '\x7b' ∧ characters.getLast? = some '\x7d' then
        ofHyphenated? characters.tail.dropLast
      else none
  | 45 => (Text.stripLead? "urn:uuid:".toList characters).bind ofHyphenated?
  | _ => ofHyphenated? characters

end WorkerId

/-- A worker that waits for work. -/
structure Waiting (α : Type) where
  worker : WorkerId
  hashpower : α
deriving DecidableEq

/-- An instruction to put a worker on a puzzle. -/
structure Assignment where
  worker : WorkerId
  puzzle : Puzzle
deriving DecidableEq

/-- Put every waiting worker on the puzzle of a job; an invalid job gives no
work. -/
def Job.assignAll
    {α : Type}
    (job : Job)
    (waiting : List (Waiting α)) :
    List Assignment :=
  if job.isValid then waiting.map fun worker => ⟨worker.worker, job.puzzle⟩ else []

end WorkMarket
