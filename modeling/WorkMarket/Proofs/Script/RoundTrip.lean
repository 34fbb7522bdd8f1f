import WorkMarket.Proofs.Script.ByteCode
import WorkMarket.Proofs.Script.Matching
import WorkMarket.Script.Locking

/-!
# Locking scripts survive writing and reading

The template takes a written script apart push by push.  The only choice on
the way is the optional address: in a bounty the push of four bytes that holds
the category comes in its place, so no field is taken for another.  Every work
script with a short tag, whose absent address is absent, reads back as it was
written.
-/

namespace WorkMarket
namespace LockingScript

open Cursor (between)

/-- What the constructors see to: a tag is short, and only contracts name a
miner. -/
structure IsRegular (script : LockingScript) : Prop where
  tag_le : script.tag.length ≤ maxTagSize
  address_eq : script.kind ≠ .contract → script.minerAddress = Address.absent

/-- Four bytes can measure a short tag. -/
theorem IsRegular.tag_lt
    {script : LockingScript}
    (regular : script.IsRegular) :
    script.tag.length < UInt32.size :=
  Nat.lt_of_le_of_lt regular.tag_le (by decide)

/-- The pushes behind the address. -/
def fieldPushes
    (script : LockingScript) :
    Program :=
  [.push (LittleEndian.ofInt32 script.category), .push script.content.toList,
    .push script.target.toBytes, .push script.tag,
    .push (LittleEndian.ofUInt32 script.userNonce), .push script.data]

theorem program_eq
    (script : LockingScript) :
    script.program =
      .push marker :: .op Opcode.drop ::
        (script.addressPush ++ script.fieldPushes ++ Verification.program) := by
  simp [program, fieldPushes]

/-- The address that the template finds in a script. -/
def pushedAddress?
    (script : LockingScript) :
    Option Bytes :=
  if script.kind = .contract then some script.minerAddress.toList else none

/-- The optional push takes the address of a contract, and in a bounty leaves
the category in place. -/
theorem optionalPush_between
    (script : LockingScript)
    (taken rest : Program) :
    Matcher.optionalPushOfSize 20
        (between taken (script.addressPush ++ script.fieldPushes ++ rest)) =
      (some script.pushedAddress?,
        between (taken ++ script.addressPush) (script.fieldPushes ++ rest)) := by
  unfold addressPush pushedAddress?
  by_cases bound : script.kind = .contract
  · rw [if_pos bound, if_pos bound]
    exact Matcher.optionalPushOfSize_between 20 script.minerAddress.toList
      (FixedBytes.length_toList _) taken (script.fieldPushes ++ rest)
  · rw [if_neg bound, if_neg bound, List.append_nil]
    exact Matcher.optionalPushOfSize_between_of_ne taken _
      (LittleEndian.ofInt32 script.category) 20 (by simp)

/-- The template takes a written script apart into the fields it was written
from. -/
theorem answer_template_program
    (script : LockingScript) :
    template.answer script.program =
      ofFields? script.pushedAddress? (LittleEndian.ofInt32 script.category)
        script.content.toList script.target.toBytes script.tag
        (LittleEndian.ofUInt32 script.userNonce) script.data := by
  have sized := Matcher.pushOfSize_between
  have verified (taken : Program) :
      Matcher.sequence Verification.program (between taken Verification.program) =
        (some (), between (taken ++ Verification.program) []) := by
    simpa using Matcher.sequence_between taken [] Verification.program
  have dropped (taken rest : Program) :
      Matcher.sequence [.op Opcode.drop] (between taken (.op Opcode.drop :: rest)) =
        (some (), between (taken ++ [.op Opcode.drop]) rest) :=
    Matcher.sequence_between taken rest [.op Opcode.drop]
  unfold Matcher.answer template
  rw [Cursor.start_eq_between, program_eq,
    Matcher.bind_eq (Matcher.data_between _ _ marker),
    Matcher.bind_eq (dropped _ _),
    Matcher.bind_eq (script.optionalPush_between _ _)]
  unfold fieldPushes
  simp only [List.cons_append, List.nil_append]
  rw [Matcher.bind_eq (sized 4 (LittleEndian.ofInt32 script.category) (by simp) _ _),
    Matcher.bind_eq (sized 32 script.content.toList (by simp) _ _),
    Matcher.bind_eq (sized 4 script.target.toBytes (by simp) _ _),
    Matcher.bind_eq (Matcher.push_between _ _ script.tag),
    Matcher.bind_eq (sized 4 (LittleEndian.ofUInt32 script.userNonce) (by simp) _ _),
    Matcher.bind_eq (Matcher.push_between _ _ script.data),
    Matcher.bind_eq (verified _), Matcher.bind_eq (Matcher.atEnd_between _)]
  rfl

/-- The fields of a regular work script make the script. -/
theorem ofFields?_fields
    (script : LockingScript)
    (valid : script.isValid = true)
    (regular : script.IsRegular) :
    ofFields? script.pushedAddress? (LittleEndian.ofInt32 script.category)
        script.content.toList script.target.toBytes script.tag
        (LittleEndian.ofUInt32 script.userNonce) script.data = some script := by
  obtain ⟨kind, category, content, target, tag, userNonce, data, minerAddress⟩ := script
  have short : ¬maxTagSize < tag.length := Nat.not_lt.mpr regular.tag_le
  cases kind with
  | invalid => contradiction
  | bounty =>
      obtain rfl : minerAddress = Address.absent := regular.address_eq (by simp)
      simp [ofFields?, pushedAddress?, short]
  | contract => simp [ofFields?, pushedAddress?, short]

/-- Every instruction of a script whose tag and data four bytes can measure tells
what it is. -/
theorem isReadable_of_mem_program
    (script : LockingScript)
    (measured : script.tag.length < UInt32.size)
    (fits : script.data.length < UInt32.size)
    (instruction : Instruction)
    (present : instruction ∈ script.program) :
    instruction.IsReadable := by
  have small (data : Bytes) (short : data.length ≤ 32) : (Instruction.push data).IsReadable :=
    Nat.lt_of_le_of_lt short (by decide)
  rw [program_eq] at present
  simp only [fieldPushes, addressPush, List.mem_cons, List.mem_append, List.not_mem_nil,
    or_false] at present
  rcases present with rfl | rfl | (inAddress | rfl | rfl | rfl | rfl | rfl | rfl) | inVerification
  · exact small marker (by decide)
  · decide
  · split at inAddress
    · rw [List.mem_singleton.mp inAddress]
      exact small _ (by simp)
    · contradiction
  · exact small _ (by simp)
  · exact small _ (by simp)
  · exact small _ (by simp)
  · exact measured
  · exact small _ (by simp)
  · exact fits
  · exact Verification.isReadable_of_mem instruction inVerification

/-- Reading is a left inverse of writing on regular work scripts. -/
theorem read_write_of_isRegular
    (script : LockingScript)
    (valid : script.isValid = true)
    (regular : script.IsRegular)
    (fits : script.data.length < UInt32.size) :
    read script.write = script := by
  unfold read read? write
  rw [if_pos valid, Program.decompile_compile script.program
      (script.isReadable_of_mem_program regular.tag_lt fits),
    Option.bind_some, answer_template_program, script.ofFields?_fields valid regular]
  rfl

/-- A script with a short tag is given as it is. -/
theorem tagged_of_le
    (script : LockingScript)
    (shortTag : script.tag.length ≤ maxTagSize) :
    script.tagged = script :=
  if_neg (Nat.not_lt.mpr shortTag)

/-- What both constructors build from fields with a short tag has exactly these
fields, and reads back from its bytes without loss. -/
theorem read_write_constructed
    (category : Int32)
    (content : Digest)
    (target : Target)
    (tag : Bytes)
    (userNonce : UInt32)
    (data : Bytes)
    (minerAddress : Address)
    (shortTag : tag.length ≤ 20)
    (measurable : data.length < UInt32.size) :
    read (bounty category content target tag userNonce data).write =
        ⟨.bounty, category, content, target, tag, userNonce, data, Address.absent⟩ ∧
      bounty category content target tag userNonce data =
        ⟨.bounty, category, content, target, tag, userNonce, data, Address.absent⟩ ∧
      read (contract category content target tag userNonce data minerAddress).write =
        ⟨.contract, category, content, target, tag, userNonce, data, minerAddress⟩ ∧
      contract category content target tag userNonce data minerAddress =
        ⟨.contract, category, content, target, tag, userNonce, data, minerAddress⟩ := by
  have short : ¬maxTagSize < tag.length := Nat.not_lt.mpr shortTag
  have bountyEqual : bounty category content target tag userNonce data =
      ⟨.bounty, category, content, target, tag, userNonce, data, Address.absent⟩ :=
    if_neg short
  have contractEqual : contract category content target tag userNonce data minerAddress =
      ⟨.contract, category, content, target, tag, userNonce, data, minerAddress⟩ :=
    if_neg short
  refine ⟨?_, bountyEqual, ?_, contractEqual⟩
  · rw [bountyEqual]
    exact read_write_of_isRegular _ rfl ⟨shortTag, fun _ => rfl⟩ measurable
  · rw [contractEqual]
    exact read_write_of_isRegular _ rfl ⟨shortTag, fun other => absurd rfl other⟩ measurable

/-- A tag and free data of twenty bytes each, as long as an address, are not
taken for one. -/
theorem read_write_constructed_addressSized :
    (List.replicate 20 (3 : UInt8)).length ≤ 20 ∧
      (List.replicate 20 (7 : UInt8)).length < UInt32.size ∧
      read (bounty (-1) Digest.absent ⟨0xff000000⟩ (List.replicate 20 3) 0
          (List.replicate 20 7)).write =
        ⟨.bounty, -1, Digest.absent, ⟨0xff000000⟩, List.replicate 20 3, 0, List.replicate 20 7,
          Address.absent⟩ ∧
      read (contract (-1) Digest.absent ⟨0xff000000⟩ (List.replicate 20 3) 0
          (List.replicate 20 7) (FixedBytes.filled 20 9)).write =
        ⟨.contract, -1, Digest.absent, ⟨0xff000000⟩, List.replicate 20 3, 0, List.replicate 20 7,
          FixedBytes.filled 20 9⟩ := by
  have shortTag : (List.replicate 20 (3 : UInt8)).length ≤ 20 := by decide
  have measurable : (List.replicate 20 (7 : UInt8)).length < UInt32.size := by decide
  obtain ⟨bountyRead, _, contractRead, _⟩ :=
    read_write_constructed (-1) Digest.absent ⟨0xff000000⟩ (List.replicate 20 3) 0
      (List.replicate 20 7) (FixedBytes.filled 20 9) shortTag measurable
  exact ⟨shortTag, measurable, bountyRead, contractRead⟩

end LockingScript
end WorkMarket
