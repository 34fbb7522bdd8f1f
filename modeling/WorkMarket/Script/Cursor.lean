import WorkMarket.Script.Instruction

/-!
# Matching a script against a template

A cursor stands before one instruction of a script.  Each matcher looks at
what comes next, and answers whether it fits; it moves the cursor behind what
it took, and leaves the cursor where it was when nothing fits.
-/

namespace WorkMarket

/-- A place in a script. -/
structure Cursor where
  /-- The whole script. -/
  program : Program
  /-- The number of instructions already taken. -/
  position : Nat
deriving DecidableEq

/-- A matcher: an answer, if there is one, and the cursor afterwards. -/
abbrev Matcher (α : Type) := OptionT (StateM Cursor) α

namespace Cursor

/-- Before the first instruction. -/
def start
    (program : Program) :
    Cursor :=
  ⟨program, 0⟩

/-- The next instruction. -/
def next?
    (cursor : Cursor) :
    Option Instruction :=
  cursor.program[cursor.position]?

/-- The cursor behind `count` further instructions. -/
def advance
    (cursor : Cursor)
    (count : Nat) :
    Cursor :=
  { cursor with position := cursor.position + count }

/-- Whether every instruction was taken. -/
def isAtEnd
    (cursor : Cursor) :
    Bool :=
  cursor.position = cursor.program.length

end Cursor

namespace Matcher

/-- Take the next push if its data satisfies `accepts`. -/
def pushWhere
    (accepts : Bytes → Bool) :
    Matcher Bytes :=
  fun cursor =>
    match cursor.next? with
    | some (.push data) =>
        if accepts data then (some data, cursor.advance 1) else (none, cursor)
    | _ => (none, cursor)

/-- Take the next push, of any size. -/
def push : Matcher Bytes :=
  pushWhere fun _ => true

/-- Take the next push, which must have exactly `size` bytes. -/
def pushOfSize
    (size : Nat) :
    Matcher Bytes :=
  pushWhere fun data => data.length = size

/-- Take the next push if it has exactly `size` bytes; go on without it
otherwise. -/
def optionalPushOfSize
    (size : Nat) :
    Matcher (Option Bytes) :=
  fun cursor =>
    let (data?, cursor) := pushOfSize size cursor
    (some data?, cursor)

/-- Take the next push, which must have exactly these bytes. -/
def data
    (expected : Bytes) :
    Matcher Unit := do
  let _ ← pushWhere fun data => data = expected

/-- Take a run of instructions, which must come next exactly so. -/
def sequence
    (expected : Program) :
    Matcher Unit :=
  fun cursor =>
    if (cursor.program.drop cursor.position).take expected.length = expected then
      (some (), cursor.advance expected.length)
    else (none, cursor)

/-- Demand that every instruction was taken. -/
def atEnd : Matcher Unit :=
  fun cursor => (if cursor.isAtEnd then some () else none, cursor)

/-- The answer of a matcher on a whole script. -/
def answer
    (matcher : Matcher α)
    (program : Program) :
    Option α :=
  (matcher (Cursor.start program)).1

end Matcher

end WorkMarket
