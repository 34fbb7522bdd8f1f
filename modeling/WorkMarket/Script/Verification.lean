import WorkMarket.Script.Instruction

/-!
# The verification program

Every work script ends with the same program.  It assembles the candidate
from the fields of the script and of the script that redeems it, checks that
the hash lies below the target, and that the redeemer's key hashes to the
miner's address and signed the transaction.
-/

namespace WorkMarket
namespace Verification

/-- A run of opcodes. -/
def ops
    (codes : List UInt8) :
    Program :=
  codes.map Instruction.op

open Opcode in
/-- Turn the compact target on the stack into a magnitude of thirty-two
bytes. -/
def expandTarget : Program :=
  ops [size, four, equalVerify, three, split, dup, three, greaterThanOrEqual, verify, dup] ++
    [.push [0x20]] ++
    ops [lessThanOrEqual, verify, toAltStack] ++
    [.push (List.replicate 29 0)] ++
    ops [cat, fromAltStack, three, sub, rshift]

open Opcode in
/-- Begin the body of the candidate with the miner's address, of which a copy
is kept, and bring up the target. -/
def bringTarget : Program :=
  ops [cat, swap, five, roll, dup, toAltStack, cat, two, pick]

open Opcode in
/-- Add both extra nonces, the root, the timestamp, the target and the nonce;
then check the hash, the address and the signature. -/
def checkWork : Program :=
  ops [toAltStack,
    five, roll, size, four, equalVerify, cat,
    five, roll, size, eight, equalVerify, cat,
    swap, cat, doubleHash, swap, toAltStack, cat, cat,
    swap, size, four, equalVerify, cat, fromAltStack, cat,
    swap, size, four, equalVerify, cat,
    doubleHash, fromAltStack, lessThan, verify,
    dup, doubleHash, fromAltStack, equalVerify, checkSig]

/-- The whole program. -/
def program : Program :=
  bringTarget ++ expandTarget ++ checkWork

end Verification
end WorkMarket
