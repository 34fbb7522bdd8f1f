import WorkMarket.Proofs.Script.Acceptance
import WorkMarket.Proofs.Script.UnlockingAcceptance

/-!
# Scripts with something added

Where a script splits, what is added behind it splits on its own.  In a locking
script the third push tells whether there is an address, so all instructions are
counted and nothing can be added or left out.  An unlocking script ends where its
address may still follow: adding one push of twenty bytes to what redeems a
contract gives what redeems a bounty, and nothing else can be added.
-/

namespace WorkMarket
namespace Program

/-- What is added to a script that splits is split on its own. -/
theorem decompile_append
    {bytes : Bytes}
    {program : Program}
    (split : decompile bytes = some program)
    (extension : Bytes) :
    decompile (bytes ++ extension) = (decompile extension).map (program ++ ·) := by
  obtain ⟨pieces, written, rfl⟩ := (decompile_eq_some_iff bytes program).mp split
  exact written.decompile_append extension

/-- Only the empty script has no instructions. -/
theorem decompile_eq_some_nil_iff
    (bytes : Bytes) :
    decompile bytes = some [] ↔ bytes = [] := by
  constructor
  · intro split
    obtain ⟨pieces, written, rfl⟩ := (decompile_eq_some_iff bytes []).mp split
    cases written
    rfl
  · rintro rfl
    rfl

/-- A script of one instruction is an encoding of it. -/
theorem decompile_eq_some_singleton_iff
    (bytes : Bytes)
    (instruction : Instruction) :
    decompile bytes = some [instruction] ↔ instruction.IsEncoding bytes := by
  rw [decompile_eq_some_iff]
  constructor
  · rintro ⟨pieces, written, rfl⟩
    cases written with
    | cons encoding others =>
        cases others
        simpa using encoding
  · intro encoding
    exact ⟨[bytes], .cons encoding .nil, by simp⟩

end Program

namespace LockingScript
namespace Pushes

theorem length_program
    (pushes : Pushes) :
    pushes.program.length =
      pushes.address?.toList.length + 8 + Verification.program.length := by
  rcases pushes with ⟨_ | _⟩ <;> simp [program] <;> omega

/-- The third push holds an address of twenty bytes or a category of four. -/
theorem third_program
    (pushes : Pushes) :
    pushes.program[2]? =
      some (.push ((pushes.address?.map FixedBytes.toList).getD pushes.category.toList)) := by
  rcases pushes with ⟨_ | _⟩ <;> rfl

/-- What fits the template is not the beginning of anything else that does. -/
theorem eq_nil_of_program_append
    {shorter longer : Pushes}
    {rest : Program}
    (extended : shorter.program ++ rest = longer.program) :
    rest = [] := by
  have third := congrArg (fun program : Program => program[2]?) extended
  have lengths := congrArg List.length extended
  have behind : 2 < shorter.program.length := by
    rw [length_program]
    omega
  simp only [List.getElem?_append_left behind, third_program, Option.some.injEq,
    Instruction.push.injEq] at third
  have sizes := congrArg List.length third
  rw [List.length_append, length_program, length_program] at lengths
  have sameLength : shorter.address?.toList.length = longer.address?.toList.length := by
    cases first : shorter.address? <;> cases second : longer.address? <;>
      simp [first, second] at sizes ⊢
  exact List.eq_nil_of_length_eq_zero (by omega)

end Pushes

/-- Bytes that denote a work script denote none once anything is added. -/
theorem isValid_read_append
    {bytes extension : Bytes}
    (added : extension ≠ [])
    (valid : (read bytes).isValid = true) :
    (read (bytes ++ extension)).isValid = false := by
  rw [Bool.eq_false_iff]
  intro stillValid
  obtain ⟨shorter, split⟩ := exists_pushes_of_isValid valid
  obtain ⟨longer, extended⟩ := exists_pushes_of_isValid stillValid
  rw [Program.decompile_append split] at extended
  obtain ⟨rest, splitRest, joined⟩ := Option.map_eq_some_iff.mp extended
  rw [Pushes.eq_nil_of_program_append joined] at splitRest
  exact added ((Program.decompile_eq_some_nil_iff extension).mp splitRest)

end LockingScript

namespace UnlockingScript

/-- The pushes before the address. -/
def fieldPushes
    (script : UnlockingScript) :
    Program :=
  [.push script.signature.bytes, .push script.publicKey.bytes,
    .push (LittleEndian.ofUInt32 script.nonce), .push (LittleEndian.ofUInt32 script.timestamp),
    .push (LittleEndian.ofUInt64 script.extraNonce₂),
    .push (LittleEndian.ofUInt32 script.extraNonce₁)]

theorem program_eq
    (script : UnlockingScript) :
    script.program = script.fieldPushes ++ script.addressPush :=
  rfl

/-- A script that names a miner besides, and so redeems a bounty. -/
def naming
    (script : UnlockingScript)
    (address : Address) :
    UnlockingScript :=
  { script with kind := .bounty, minerAddress := address }

/-- The address comes behind everything that redeems a contract. -/
theorem program_naming
    {script : UnlockingScript}
    (isContract : script.kind = .contract)
    (address : Address) :
    (script.naming address).program = script.program ++ [.push address.toList] := by
  simp [program, naming, addressPush, isContract]

/-- The pushes before the address tell all fields but the kind and the address. -/
theorem eq_naming_of_fieldPushes_eq
    {shorter longer : UnlockingScript}
    (isBounty : longer.kind = .bounty)
    (same : shorter.fieldPushes = longer.fieldPushes) :
    longer = shorter.naming longer.minerAddress := by
  have told₄ := Function.LeftInverse.injective LittleEndian.toUInt32_ofUInt32
  have told₈ := Function.LeftInverse.injective LittleEndian.toUInt64_ofUInt64
  obtain ⟨_, ⟨_⟩, ⟨_⟩, _, _, _, _, _⟩ := shorter
  obtain ⟨_, ⟨_⟩, ⟨_⟩, _, _, _, _, _⟩ := longer
  simp only [fieldPushes, List.cons.injEq, Instruction.push.injEq, told₄.eq_iff, told₈.eq_iff,
    and_true] at same
  obtain ⟨rfl, rfl, rfl, rfl, rfl, rfl⟩ := same
  rw [naming, ← isBounty]

/-- Of two scripts whose programs begin alike the longer one names a miner
besides. -/
theorem eq_naming_of_program_append
    {shorter longer : UnlockingScript}
    {rest : Program}
    (added : rest ≠ [])
    (extended : shorter.program ++ rest = longer.program) :
    shorter.kind ≠ .bounty ∧ rest = [.push longer.minerAddress.toList] ∧
      longer = shorter.naming longer.minerAddress := by
  rw [program_eq, program_eq, List.append_assoc] at extended
  obtain ⟨sameFields, behind⟩ := List.append_inj extended rfl
  unfold addressPush at behind
  by_cases isBounty : longer.kind = .bounty
  · by_cases already : shorter.kind = .bounty
    · simp [isBounty, already, added] at behind
    · simp only [isBounty, already, if_true, if_false, List.nil_append] at behind
      exact ⟨already, behind, eq_naming_of_fieldPushes_eq isBounty sameFields⟩
  · simp [isBounty, added] at behind

section Extension

variable {bytes extension : Bytes} {address : Address}

/-- Whatever is added to a script that redeems work, and redeems work still, is
a push of an address behind what redeems a contract. -/
theorem read_append_cases
    (added : extension ≠ [])
    (valid : (read bytes).isValid = true)
    (stillValid : (read (bytes ++ extension)).isValid = true) :
    (read bytes).kind = .contract ∧
      ∃ address : Address, Instruction.IsEncoding (.push address.toList) extension ∧
        read (bytes ++ extension) = (read bytes).naming address := by
  obtain ⟨split, _⟩ := (read_eq_iff_of_isValid valid bytes).mp rfl
  obtain ⟨extended, _⟩ := (read_eq_iff_of_isValid stillValid (bytes ++ extension)).mp rfl
  rw [Program.decompile_append split] at extended
  obtain ⟨rest, splitRest, joined⟩ := Option.map_eq_some_iff.mp extended
  have more : rest ≠ [] := by
    rintro rfl
    exact added ((Program.decompile_eq_some_nil_iff extension).mp splitRest)
  obtain ⟨notBounty, rfl, named⟩ := eq_naming_of_program_append more joined
  exact ⟨((isValid_iff _).mp valid).resolve_left notBounty, _,
    (Program.decompile_eq_some_singleton_iff extension _).mp splitRest, named⟩

/-- A push of an address behind what redeems a contract makes it redeem a
bounty. -/
theorem read_append_of_contract
    (isContract : (read bytes).kind = .contract)
    (encoding : Instruction.IsEncoding (.push address.toList) extension) :
    read (bytes ++ extension) = (read bytes).naming address := by
  have valid : (read bytes).isValid = true := (isValid_iff _).mpr (Or.inr isContract)
  obtain ⟨split, regular⟩ := (read_eq_iff_of_isValid valid bytes).mp rfl
  refine (read_eq_iff_of_isValid rfl _).mpr
    ⟨?_, regular.keySize, fun other => absurd rfl other⟩
  rw [program_naming isContract, Program.decompile_append split,
    (Program.decompile_eq_some_singleton_iff extension _).mpr encoding, Option.map_some]

end Extension

end UnlockingScript

/-- What can be added to accepted scripts, or cut off from them.  No locking
script goes on as another.  An unlocking script goes on as another exactly if it
redeems a contract and a push of an address follows, in any of the forms of a
push; then the longer one redeems a bounty for this address, with the same
signature, key and solution. -/
theorem accepted_extensions :
    (∀ bytes extension : Bytes, extension ≠ [] →
        ¬((LockingScript.read bytes).isValid = true ∧
          (LockingScript.read (bytes ++ extension)).isValid = true)) ∧
      (∀ bytes extension : Bytes, extension ≠ [] →
        (UnlockingScript.read bytes).isValid = true →
        (UnlockingScript.read (bytes ++ extension)).isValid = true →
        (UnlockingScript.read bytes).kind = .contract ∧
          ∃ address : Address, Instruction.IsEncoding (.push address.toList) extension ∧
            UnlockingScript.read (bytes ++ extension) =
              { UnlockingScript.read bytes with kind := .bounty, minerAddress := address }) ∧
      ∀ (bytes extension : Bytes) (address : Address),
        (UnlockingScript.read bytes).kind = .contract →
        Instruction.IsEncoding (.push address.toList) extension →
        UnlockingScript.read (bytes ++ extension) =
          { UnlockingScript.read bytes with kind := .bounty, minerAddress := address } := by
  refine ⟨?_, ?_, ?_⟩
  · rintro bytes extension added ⟨valid, stillValid⟩
    rw [LockingScript.isValid_read_append added valid] at stillValid
    contradiction
  · intro bytes extension added valid stillValid
    exact UnlockingScript.read_append_cases added valid stillValid
  · intro bytes extension address isContract encoding
    exact UnlockingScript.read_append_of_contract isContract encoding

/-- A bounty as it is published. -/
def publishedBounty : Bytes :=
  (LockingScript.bounty 0 Digest.absent Target.easiest [7] 0 []).write

/-- What redeems a contract with a key of thirty-three bytes. -/
def contractRedeemed : Bytes :=
  (UnlockingScript.contract ⟨[4]⟩ ⟨List.replicate 33 2⟩ ⟨5, 6, 7, 8⟩).write

/-- A push of an address whose length stands in a field of its own. -/
def measuredAddress : Bytes :=
  Opcode.pushData₁ :: ([20] ++ List.replicate 20 9)

/-- A published bounty denotes nothing with an opcode added, and what redeems a
contract redeems a bounty with an address added. -/
theorem accepted_extensions_measuredAddress :
    (LockingScript.read publishedBounty).isValid = true ∧
      ¬(LockingScript.read (publishedBounty ++ [Opcode.checkSig])).isValid = true ∧
      measuredAddress ≠ [] ∧
      (UnlockingScript.read contractRedeemed).isValid = true ∧
      (UnlockingScript.read (contractRedeemed ++ measuredAddress)).isValid = true ∧
      (UnlockingScript.read contractRedeemed).kind = .contract ∧
      Instruction.IsEncoding (.push (FixedBytes.filled 20 9 : Address).toList) measuredAddress ∧
      UnlockingScript.read (contractRedeemed ++ measuredAddress) =
        { UnlockingScript.read contractRedeemed with
          kind := .bounty
          minerAddress := FixedBytes.filled 20 9 } := by
  obtain ⟨published, redeeming, named⟩ := accepted_extensions
  have valid : (UnlockingScript.read contractRedeemed).isValid = true := by decide +kernel
  have stillValid :
      (UnlockingScript.read (contractRedeemed ++ measuredAddress)).isValid = true := by
    decide +kernel
  have encoding : Instruction.IsEncoding (.push (FixedBytes.filled 20 9 : Address).toList)
      measuredAddress :=
    .measured .oneByte [20] (List.replicate 20 9) rfl (by decide)
  obtain ⟨isContract, _⟩ := redeeming _ measuredAddress (by decide) valid stillValid
  have denoted : (LockingScript.read publishedBounty).isValid = true := by decide +kernel
  refine ⟨denoted, fun extended => ?_, by decide, valid, stillValid, isContract, encoding,
    named _ _ _ isContract encoding⟩
  exact published _ [Opcode.checkSig] (by decide) ⟨denoted, extended⟩

end WorkMarket
