import WorkMarket.Proofs.Script.Encodings
import WorkMarket.Proofs.Script.RoundTrip

/-!
# Which scripts are work scripts

The template takes a script apart push by push and lets nothing stand between
or behind.  So bytes denote a work script exactly if they split into the marker,
the pushes of the fields in their sizes and the verification program, and the
script is then the one whose fields these pushes hold.  What is written for it
splits alike, in the fewest bytes.
-/

namespace WorkMarket
namespace LockingScript

open Cursor (between)

/-- What is pushed in a script that fits the template. -/
structure Pushes where
  /-- The address that only a contract pushes. -/
  address? : Option Address
  category : FixedBytes 4
  content : Digest
  target : FixedBytes 4
  tag : Bytes
  /-- The tag is short. -/
  tag_le : tag.length ≤ maxTagSize
  userNonce : FixedBytes 4
  data : Bytes

namespace Pushes

/-- The instructions of a script that fits the template. -/
def program
    (pushes : Pushes) :
    Program :=
  [.push marker, .op Opcode.drop] ++
    (pushes.address?.map fun address => Instruction.push address.toList).toList ++
    [.push pushes.category.toList, .push pushes.content.toList, .push pushes.target.toList,
      .push pushes.tag, .push pushes.userNonce.toList, .push pushes.data] ++
    Verification.program

/-- The script whose fields are pushed. -/
def script
    (pushes : Pushes) :
    LockingScript where
  kind := if pushes.address?.isSome then .contract else .bounty
  category := LittleEndian.toInt32 pushes.category.toList
  content := pushes.content
  target := ⟨LittleEndian.toUInt32 pushes.target.toList⟩
  tag := pushes.tag
  userNonce := LittleEndian.toUInt32 pushes.userNonce.toList
  data := pushes.data
  minerAddress := pushes.address?.getD Address.absent

variable (pushes : Pushes)

theorem isValid_script :
    pushes.script.isValid = true := by
  rcases pushes with ⟨_ | _⟩ <;> rfl

theorem isRegular_script :
    pushes.script.IsRegular := by
  refine ⟨pushes.tag_le, fun other => ?_⟩
  rcases pushes with ⟨_ | _⟩
  · rfl
  · exact absurd rfl other

/-- A script pushes what its fields were read from. -/
theorem program_script :
    pushes.script.program = pushes.program := by
  have category := LittleEndian.ofInt32_toInt32 _ pushes.category.length_toList
  have target := LittleEndian.ofUInt32_toUInt32 _ pushes.target.length_toList
  have userNonce := LittleEndian.ofUInt32_toUInt32 _ pushes.userNonce.length_toList
  have address : pushes.script.addressPush =
      (pushes.address?.map fun address => Instruction.push address.toList).toList := by
    rcases pushes with ⟨_ | _⟩ <;> rfl
  unfold LockingScript.program program
  rw [address]
  simp only [script, Target.toBytes, category, target, userNonce]

end Pushes

/-- Fields make a script only if the tag is short. -/
theorem tag_le_of_ofFields?
    {address? : Option Bytes}
    {category content target tag userNonce data : Bytes}
    {script : LockingScript}
    (found : ofFields? address? category content target tag userNonce data = some script) :
    tag.length ≤ maxTagSize := by
  unfold ofFields? at found
  cases address? with
  | none =>
      simp only [Option.bind_eq_bind, Option.bind_eq_some_iff, Option.some.injEq,
        Option.ite_none_left_eq_some] at found
      obtain ⟨_, _, _, _, short, _⟩ := found
      exact Nat.not_lt.mp short
  | some bytes =>
      simp only [Option.bind_eq_bind, Option.bind_eq_some_iff, Option.map_eq_some_iff,
        Option.some.injEq, Option.ite_none_left_eq_some] at found
      obtain ⟨_, _, _, _, short, _⟩ := found
      exact Nat.not_lt.mp short

/-- What the template takes apart is made up of the pushes of the fields. -/
theorem exists_pushes_of_answer
    {program : Program}
    {script : LockingScript}
    (found : template.answer program = some script) :
    ∃ pushes : Pushes, program = pushes.program := by
  obtain ⟨finish, succeeds⟩ :
      ∃ finish, template (between [] program) = (some script, finish) :=
    ⟨_, Prod.ext found rfl⟩
  unfold template at succeeds
  obtain ⟨_, _, marked, succeeds⟩ := Matcher.exists_of_bind_eq succeeds
  obtain ⟨_, rfl, rfl⟩ := Matcher.of_data_between marked
  obtain ⟨_, _, dropped, succeeds⟩ := Matcher.exists_of_bind_eq succeeds
  obtain ⟨_, rfl, rfl⟩ := Matcher.of_sequence_between dropped
  obtain ⟨address?, _, bound, succeeds⟩ := Matcher.exists_of_bind_eq succeeds
  obtain ⟨addressSized, _, rfl, rfl⟩ := Matcher.of_optionalPushOfSize_between bound
  obtain ⟨category, _, pushed, succeeds⟩ := Matcher.exists_of_bind_eq succeeds
  obtain ⟨categorySized, _, rfl, rfl⟩ := Matcher.of_pushOfSize_between pushed
  obtain ⟨content, _, pushed, succeeds⟩ := Matcher.exists_of_bind_eq succeeds
  obtain ⟨contentSized, _, rfl, rfl⟩ := Matcher.of_pushOfSize_between pushed
  obtain ⟨target, _, pushed, succeeds⟩ := Matcher.exists_of_bind_eq succeeds
  obtain ⟨targetSized, _, rfl, rfl⟩ := Matcher.of_pushOfSize_between pushed
  obtain ⟨tag, _, pushed, succeeds⟩ := Matcher.exists_of_bind_eq succeeds
  obtain ⟨_, rfl, rfl⟩ := Matcher.of_push_between pushed
  obtain ⟨userNonce, _, pushed, succeeds⟩ := Matcher.exists_of_bind_eq succeeds
  obtain ⟨nonceSized, _, rfl, rfl⟩ := Matcher.of_pushOfSize_between pushed
  obtain ⟨data, _, pushed, succeeds⟩ := Matcher.exists_of_bind_eq succeeds
  obtain ⟨_, rfl, rfl⟩ := Matcher.of_push_between pushed
  obtain ⟨_, _, verified, succeeds⟩ := Matcher.exists_of_bind_eq succeeds
  obtain ⟨_, rfl, rfl⟩ := Matcher.of_sequence_between verified
  obtain ⟨_, _, ended, made⟩ := Matcher.exists_of_bind_eq succeeds
  have short := tag_le_of_ofFields? (congrArg Prod.fst made)
  obtain rfl := Matcher.of_atEnd_between ended
  cases address? with
  | none =>
      exact ⟨⟨none, ⟨category, categorySized⟩, ⟨content, contentSized⟩, ⟨target, targetSized⟩,
        tag, short, ⟨userNonce, nonceSized⟩, data⟩, by simp [Pushes.program]⟩
  | some address =>
      exact ⟨⟨some ⟨address, addressSized address rfl⟩, ⟨category, categorySized⟩,
        ⟨content, contentSized⟩, ⟨target, targetSized⟩, tag, short, ⟨userNonce, nonceSized⟩,
        data⟩, by simp [Pushes.program]⟩

/-- The template answers with the script whose fields are pushed. -/
theorem Pushes.answer_program
    (pushes : Pushes) :
    template.answer pushes.program = some pushes.script := by
  rw [← pushes.program_script, answer_template_program,
    ofFields?_fields _ pushes.isValid_script pushes.isRegular_script]

/-- Bytes that split into such pushes denote this script. -/
theorem read_eq_script
    {bytes : Bytes}
    (pushes : Pushes)
    (split : Program.decompile bytes = some pushes.program) :
    read bytes = pushes.script := by
  rw [read, read?, split, Option.bind_some, pushes.answer_program, Option.getD_some]

/-- Bytes denote a work script only if they split into such pushes. -/
theorem exists_pushes_of_isValid
    {bytes : Bytes}
    (valid : (read bytes).isValid = true) :
    ∃ pushes : Pushes, Program.decompile bytes = some pushes.program := by
  unfold read at valid
  cases found : read? bytes with
  | none =>
      rw [found] at valid
      contradiction
  | some script =>
      obtain ⟨program, split, answered⟩ := Option.bind_eq_some_iff.mp found
      obtain ⟨pushes, rfl⟩ := exists_pushes_of_answer answered
      exact ⟨pushes, split⟩

/-- Bytes denote a work script exactly if they split into the pushes of the
template, and the script then has what was pushed for its fields.  Its own
bytes split alike and are no more, and they are the same exactly if every
instruction was encoded in the fewest bytes. -/
theorem read_accepts_template
    (bytes : Bytes) :
    ((read bytes).isValid = true ↔
        ∃ pushes : Pushes, Program.decompile bytes = some pushes.program) ∧
      ∀ pushes : Pushes, Program.decompile bytes = some pushes.program →
        read bytes = pushes.script ∧
        ((read bytes).kind = .contract ↔ pushes.address?.isSome = true) ∧
        Program.decompile (read bytes).write = Program.decompile bytes ∧
        (read bytes).write.length ≤ bytes.length ∧
        ∀ pieces, pushes.program.IsWrittenAs pieces → pieces.flatten = bytes →
          ((read bytes).write = bytes ↔
            List.Forall₂ Instruction.IsShortest pushes.program pieces) := by
  refine ⟨⟨exists_pushes_of_isValid, ?_⟩, fun pushes split => ?_⟩
  · rintro ⟨pushes, split⟩
    rw [read_eq_script pushes split]
    exact pushes.isValid_script
  · obtain ⟨pieces, written, rfl⟩ := (Program.decompile_eq_some_iff bytes _).mp split
    have write : (read pieces.flatten).write = pushes.program.compile := by
      rw [read_eq_script pushes split, LockingScript.write, if_pos pushes.isValid_script,
        pushes.program_script]
    rw [write]
    refine ⟨read_eq_script pushes split, ?_, ?_, written.compile_le.1, ?_⟩
    · rw [read_eq_script pushes split]
      rcases pushes with ⟨_ | _⟩ <;> simp [Pushes.script]
    · rw [split]
      exact Program.decompile_compile _ written.isReadable
    · intro other otherWritten same
      rw [← same]
      exact otherWritten.compile_eq_iff

/-- The pushes of a bounty with a tag of one byte. -/
def Pushes.oneByteTag : Pushes where
  address? := none
  category := FixedBytes.zero 4
  content := Digest.absent
  target := FixedBytes.zero 4
  tag := [7]
  tag_le := by decide
  userNonce := FixedBytes.zero 4
  data := []

/-- Its bytes, with the tag behind a length field of its own. -/
def measuredTag : Bytes :=
  Program.compile [.push marker, .op Opcode.drop, .push (List.replicate 4 0),
      .push (List.replicate 32 0), .push (List.replicate 4 0)] ++
    [Opcode.pushData₁, 1, 7] ++
    Program.compile (.push (List.replicate 4 0) :: .push [] :: Verification.program)

/-- A tag behind a length field is accepted, and written without it. -/
theorem read_accepts_template_measuredTag
    : Program.decompile measuredTag = some Pushes.oneByteTag.program ∧
      read measuredTag = Pushes.oneByteTag.script ∧
      (read measuredTag).isValid = true ∧
      (read measuredTag).kind ≠ .contract ∧
      Program.decompile (read measuredTag).write = Program.decompile measuredTag ∧
      (read measuredTag).write.length ≤ measuredTag.length ∧
      ∃ pieces, Pushes.oneByteTag.program.IsWrittenAs pieces ∧ pieces.flatten = measuredTag ∧
        ¬List.Forall₂ Instruction.IsShortest Pushes.oneByteTag.program pieces := by
  obtain ⟨accepted, denoted⟩ := read_accepts_template measuredTag
  have split : Program.decompile measuredTag = some Pushes.oneByteTag.program := by
    decide +kernel
  obtain ⟨equal, bound, same, le, canonical⟩ := denoted _ split
  obtain ⟨pieces, written, flat⟩ := (Program.decompile_eq_some_iff _ _).mp split
  refine ⟨split, equal, accepted.mpr ⟨_, split⟩, ?_, same, le, pieces, written, flat, ?_⟩
  · rw [ne_eq, bound]
    decide
  · rw [← canonical pieces written flat, equal]
    decide +kernel

end LockingScript
end WorkMarket
