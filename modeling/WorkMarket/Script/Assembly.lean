import WorkMarket.Bytes.Hex
import WorkMarket.Script.Instruction

/-!
# Scripts as people read them

Pushes are shown as their data in braces, opcodes by name where the work
scripts use them and by number otherwise.
-/

namespace WorkMarket

/-- The name of an opcode the work scripts use. -/
def Opcode.name?
    (code : UInt8) :
    Option String :=
  ([(two, "OP_2"), (three, "OP_3"), (four, "OP_4"), (five, "OP_5"), (eight, "OP_8"),
    (verify, "OP_VERIFY"), (toAltStack, "OP_TOALTSTACK"), (fromAltStack, "OP_FROMALTSTACK"),
    (drop, "OP_DROP"), (dup, "OP_DUP"), (pick, "OP_PICK"), (roll, "OP_ROLL"),
    (swap, "OP_SWAP"), (cat, "OP_CAT"), (split, "OP_SPLIT"), (size, "OP_SIZE"),
    (equalVerify, "OP_EQUALVERIFY"), (sub, "OP_SUB"), (rshift, "OP_RSHIFT"),
    (lessThan, "OP_LESSTHAN"), (lessThanOrEqual, "OP_LESSTHANOREQUAL"),
    (greaterThanOrEqual, "OP_GREATERTHANOREQUAL"), (doubleHash, "OP_HASH256"),
    (checkSig, "OP_CHECKSIG")] : List (UInt8 × String)).lookup code

/-- The text of an instruction. -/
def Instruction.text : Instruction → String
  | push data =>
      if data.isEmpty then "OP_0" else "\x7b" ++ Hex.encode data ++ "\x7d"
  | op code =>
      match Opcode.name? code with
      | some name => name
      | none => "OP_0x" ++ String.ofList (Text.hexPadded 2 code.toNat)

/-- The text of a script, with blanks between the instructions. -/
def assembly
    (script : Bytes) :
    String :=
  match Program.decompile script with
  | some program => Text.joined " " (program.map Instruction.text)
  | none => "<invalid " ++ Hex.encode script ++ ">"

end WorkMarket
