import WorkMarket.Bytes.LittleEndian

/-!
# Script byte code

A script is a list of instructions, each a push of data or an opcode.
`compile` writes every push in its shortest form; `decompile` splits bytes
back into instructions and accepts every form of a push.
-/

namespace WorkMarket

namespace Opcode

/-- The push of no data. -/
def empty : UInt8 := 0x00
/-- A push whose length takes one byte. -/
def pushData₁ : UInt8 := 0x4c
/-- A push whose length takes two bytes. -/
def pushData₂ : UInt8 := 0x4d
/-- A push whose length takes four bytes. -/
def pushData₄ : UInt8 := 0x4e
/-- Push the number two. -/
def two : UInt8 := 0x52
/-- Push the number three. -/
def three : UInt8 := 0x53
/-- Push the number four. -/
def four : UInt8 := 0x54
/-- Push the number five. -/
def five : UInt8 := 0x55
/-- Push the number eight. -/
def eight : UInt8 := 0x58
/-- Fail unless the top is true. -/
def verify : UInt8 := 0x69
/-- Move the top to the other stack. -/
def toAltStack : UInt8 := 0x6b
/-- Move the top of the other stack back. -/
def fromAltStack : UInt8 := 0x6c
/-- Drop the top. -/
def drop : UInt8 := 0x75
/-- Copy the top. -/
def dup : UInt8 := 0x76
/-- Copy an element from deeper down. -/
def pick : UInt8 := 0x79
/-- Move an element from deeper down. -/
def roll : UInt8 := 0x7a
/-- Exchange the two topmost elements. -/
def swap : UInt8 := 0x7c
/-- Join the two topmost elements. -/
def cat : UInt8 := 0x7e
/-- Cut the second element in two. -/
def split : UInt8 := 0x7f
/-- Push the size of the top. -/
def size : UInt8 := 0x82
/-- Fail unless the two topmost elements are equal. -/
def equalVerify : UInt8 := 0x88
/-- Subtract. -/
def sub : UInt8 := 0x94
/-- Shift right. -/
def rshift : UInt8 := 0x99
/-- Compare strictly. -/
def lessThan : UInt8 := 0x9f
/-- Compare. -/
def lessThanOrEqual : UInt8 := 0xa1
/-- Compare the other way. -/
def greaterThanOrEqual : UInt8 := 0xa2
/-- Double SHA-256. -/
def doubleHash : UInt8 := 0xaa
/-- Check a signature. -/
def checkSig : UInt8 := 0xac

end Opcode

/-- One element of a script. -/
inductive Instruction where
  /-- A push of data; the empty push is the opcode zero. -/
  | push (data : Bytes)
  /-- Any other opcode. -/
  | op (code : UInt8)
deriving DecidableEq, Inhabited

/-- A script as a list of its elements. -/
abbrev Program := List Instruction

namespace Instruction

/-- The shortest form of a push of so many bytes, without the data. -/
def pushHead
    (length : Nat) :
    Bytes :=
  if length < 76 then [UInt8.ofNat length]
  else if length < UInt8.size then [Opcode.pushData₁, UInt8.ofNat length]
  else if length < UInt16.size then Opcode.pushData₂ :: LittleEndian.encode 2 length
  else Opcode.pushData₄ :: LittleEndian.encode 4 length

/-- The bytes of an instruction. -/
def encode : Instruction → Bytes
  | push data => pushHead data.length ++ data
  | op code => [code]

/-- The length a push announces and the bytes behind the announcement; an
opcode that is no push announces nothing. -/
inductive Head where
  /-- A push of `length` bytes, which have to follow. -/
  | push (length : Nat) (rest : Bytes)
  /-- An opcode. -/
  | op (code : UInt8) (rest : Bytes)

/-- Read the length of a push from its first `width` bytes. -/
def lengthField
    (width : Nat)
    (bytes : Bytes) :
    Option Head :=
  let field := bytes.take width
  if field.length = width then some (.push (LittleEndian.decode field) (bytes.drop width))
  else none

/-- Read the announcement of an instruction behind its first byte. -/
def head?
    (code : UInt8)
    (bytes : Bytes) :
    Option Head :=
  if code < Opcode.pushData₁ then some (.push code.toNat bytes)
  else if code = Opcode.pushData₁ then lengthField 1 bytes
  else if code = Opcode.pushData₂ then lengthField 2 bytes
  else if code = Opcode.pushData₄ then lengthField 4 bytes
  else some (.op code bytes)

/-- Split the first instruction off a script that is not empty. -/
def splitFirst?
    (code : UInt8)
    (bytes : Bytes) :
    Option (Instruction × Bytes) :=
  match head? code bytes with
  | none => none
  | some (.op code rest) => some (.op code, rest)
  | some (.push length rest) =>
      let data := rest.take length
      if data.length = length then some (.push data, rest.drop length) else none

end Instruction

namespace Program

/-- The bytes of a script. -/
def compile
    (program : Program) :
    Bytes :=
  program.flatMap Instruction.encode

/-- Split bytes into at most `limit` instructions. -/
def splitWithin : (limit : Nat) → Bytes → Option Program
  | _, [] => some []
  | 0, _ :: _ => none
  | limit + 1, code :: bytes =>
      match Instruction.splitFirst? code bytes with
      | none => none
      | some (instruction, rest) => (splitWithin limit rest).map (instruction :: ·)

/-- Split a script into instructions; there are none if a push runs past the
end.  Every instruction takes a byte, so no script has more instructions than
bytes. -/
def decompile
    (bytes : Bytes) :
    Option Program :=
  splitWithin bytes.length bytes

@[simp] theorem compile_nil :
    compile [] = [] :=
  rfl

@[simp] theorem compile_cons
    (instruction : Instruction)
    (program : Program) :
    compile (instruction :: program) = instruction.encode ++ compile program :=
  rfl

@[simp] theorem compile_append
    (first second : Program) :
    compile (first ++ second) = compile first ++ compile second := by
  simp [compile]

end Program

end WorkMarket
