import WorkMarket.Proofs.Script.ByteCode
import WorkMarket.Proofs.Script.Matching
import WorkMarket.Script.Unlocking

/-!
# Unlocking scripts survive writing and reading

The template leaves two choices.  A key may have either of two sizes, and the
push in its place tells which; an address may stand at the end, and only a
bounty has one.  What a solution is wrapped into reads back as it was written,
so the solution is found again even though the script stores its fields in
another order.
-/

namespace WorkMarket
namespace UnlockingScript

open Cursor (between)

/-- What the bytes of a script can hold: a key of one of the two sizes, and an
address only where a bounty is redeemed. -/
structure IsRegular (script : UnlockingScript) : Prop where
  keySize : script.publicKey.bytes.length = PublicKey.compressedSize ∨
    script.publicKey.bytes.length = PublicKey.fullSize
  address_eq : script.kind ≠ .bounty → script.minerAddress = Address.absent

/-- The address that the template finds in a script. -/
def pushedAddress?
    (script : UnlockingScript) :
    Option Bytes :=
  if script.kind = .bounty then some script.minerAddress.toList else none

/-- A key of either size is taken. -/
theorem keyPush_between
    (key : Bytes)
    (fits : key.length = PublicKey.compressedSize ∨ key.length = PublicKey.fullSize)
    (taken rest : Program) :
    (Matcher.pushOfSize PublicKey.compressedSize <|> Matcher.pushOfSize PublicKey.fullSize)
        (between taken (.push key :: rest)) =
      (some key, between (taken ++ [.push key]) rest) := by
  rcases fits with compressed | full
  · exact Matcher.orElse_eq_of_left
      (Matcher.pushOfSize_between PublicKey.compressedSize key compressed taken rest)
  · have refused : Matcher.pushOfSize PublicKey.compressedSize
        (between taken (.push key :: rest)) = (none, between taken (.push key :: rest)) :=
      Matcher.pushWhere_between_of_not taken rest key (by rw [full]; decide)
    rw [Matcher.orElse_eq_of_right refused]
    exact Matcher.pushOfSize_between PublicKey.fullSize key full taken rest

/-- The optional push takes the address of a bounty; nothing else is left. -/
theorem optionalPush_between
    (script : UnlockingScript)
    (taken : Program) :
    Matcher.optionalPushOfSize 20 (between taken script.addressPush) =
      (some script.pushedAddress?, between (taken ++ script.addressPush) []) := by
  unfold addressPush pushedAddress?
  by_cases isBounty : script.kind = .bounty
  · rw [if_pos isBounty, if_pos isBounty]
    exact Matcher.optionalPushOfSize_between 20 script.minerAddress.toList
      (FixedBytes.length_toList _) taken []
  · rw [if_neg isBounty, if_neg isBounty, List.append_nil]
    exact Matcher.optionalPushOfSize_between_nil taken 20

/-- The template takes a written script apart into the fields it was written
from. -/
theorem answer_template_program
    (script : UnlockingScript)
    (regular : script.IsRegular) :
    template.answer script.program =
      ofFields? script.signature.bytes script.publicKey.bytes
        (LittleEndian.ofUInt32 script.nonce) (LittleEndian.ofUInt32 script.timestamp)
        (LittleEndian.ofUInt64 script.extraNonce₂) (LittleEndian.ofUInt32 script.extraNonce₁)
        script.pushedAddress? := by
  have sized := Matcher.pushOfSize_between
  unfold Matcher.answer template program
  simp only [Cursor.start_eq_between, List.cons_append, List.nil_append]
  rw [Matcher.bind_eq (Matcher.push_between _ _ script.signature.bytes),
    Matcher.bind_eq (keyPush_between _ regular.keySize _ _),
    Matcher.bind_eq (sized 4 (LittleEndian.ofUInt32 script.nonce) (by simp) _ _),
    Matcher.bind_eq (sized 4 (LittleEndian.ofUInt32 script.timestamp) (by simp) _ _),
    Matcher.bind_eq (sized 8 (LittleEndian.ofUInt64 script.extraNonce₂) (by simp) _ _),
    Matcher.bind_eq (sized 4 (LittleEndian.ofUInt32 script.extraNonce₁) (by simp) _ _),
    Matcher.bind_eq (script.optionalPush_between _),
    Matcher.bind_eq (Matcher.atEnd_between _)]
  rfl

/-- The fields of a regular script make the script. -/
theorem ofFields?_fields
    (script : UnlockingScript)
    (valid : script.isValid = true)
    (regular : script.IsRegular) :
    ofFields? script.signature.bytes script.publicKey.bytes
        (LittleEndian.ofUInt32 script.nonce) (LittleEndian.ofUInt32 script.timestamp)
        (LittleEndian.ofUInt64 script.extraNonce₂) (LittleEndian.ofUInt32 script.extraNonce₁)
        script.pushedAddress? = some script := by
  have absent := regular.address_eq
  obtain ⟨kind, signature, publicKey, nonce, timestamp, extraNonce₂, extraNonce₁,
    minerAddress⟩ := script
  cases kind with
  | invalid => contradiction
  | bounty => simp [ofFields?, pushedAddress?]
  | contract =>
      obtain rfl : minerAddress = Address.absent := absent (by simp)
      simp [ofFields?, pushedAddress?]

/-- Every instruction of a regular script whose signature four bytes can
measure tells what it is. -/
theorem isReadable_of_mem_program
    (script : UnlockingScript)
    (regular : script.IsRegular)
    (fits : script.signature.bytes.length < UInt32.size)
    (instruction : Instruction)
    (present : instruction ∈ script.program) :
    instruction.IsReadable := by
  have small (data : Bytes) (short : data.length ≤ 65) : (Instruction.push data).IsReadable :=
    Nat.lt_of_le_of_lt short (by decide)
  have shortKey : script.publicKey.bytes.length ≤ 65 := by
    rcases regular.keySize with compressed | full
    · rw [compressed]; decide
    · rw [full]; decide
  simp only [program, addressPush, List.mem_cons, List.mem_append, List.not_mem_nil,
    or_false] at present
  rcases present with (rfl | rfl | rfl | rfl | rfl | rfl) | inAddress
  · exact fits
  · exact small _ shortKey
  · exact small _ (by simp)
  · exact small _ (by simp)
  · exact small _ (by simp)
  · exact small _ (by simp)
  · split at inAddress
    · rw [List.mem_singleton.mp inAddress]
      exact small _ (by simp)
    · contradiction

/-- Reading is a left inverse of writing on regular scripts. -/
theorem read_write_of_isRegular
    (script : UnlockingScript)
    (valid : script.isValid = true)
    (regular : script.IsRegular)
    (fits : script.signature.bytes.length < UInt32.size) :
    read script.write = script := by
  unfold read read? write
  rw [if_pos valid, Program.decompile_compile script.program
      (script.isReadable_of_mem_program regular fits),
    Option.bind_some, script.answer_template_program regular,
    script.ofFields?_fields valid regular]
  rfl

section OfSolution

variable (signature : Signature) (key : PublicKey) (solution : Solution) (kind : ScriptKind)

@[simp] theorem kind_ofSolution :
    (ofSolution signature key solution kind).kind = kind := by
  cases kind <;> rfl

/-- A solution is found again in the script it was wrapped into. -/
theorem solution_ofSolution
    (valid : kind.isValid = true) :
    (ofSolution signature key solution kind).solution = solution := by
  cases kind with
  | invalid => contradiction
  | bounty => rfl
  | contract => rfl

/-- What a solution is wrapped into reads back from its bytes without loss. -/
theorem read_write_ofSolution
    (valid : kind.isValid = true)
    (keySize : key.bytes.length = PublicKey.compressedSize ∨
      key.bytes.length = PublicKey.fullSize)
    (fits : signature.bytes.length < UInt32.size) :
    read (ofSolution signature key solution kind).write =
      ofSolution signature key solution kind := by
  cases kind with
  | invalid => contradiction
  | bounty => exact read_write_of_isRegular _ rfl ⟨keySize, fun other => absurd rfl other⟩ fits
  | contract => exact read_write_of_isRegular _ rfl ⟨keySize, fun _ => rfl⟩ fits

end OfSolution

end UnlockingScript
end WorkMarket
