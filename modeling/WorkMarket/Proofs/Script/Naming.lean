import WorkMarket.Proofs.Script.Acceptance

/-!
# Scripts are named by their bytes

The name of a script is the hash of its bytes.  The bytes alone tell regular
scripts apart, whatever the length of their data: the fields of bounded size
are taken off push by push, and what is left holds the data behind an
announcement that only grows with its length.  So two scripts share a name
only if their bytes collide under the hash.
-/

namespace WorkMarket
namespace Instruction

/-- Two scripts that begin with readable instructions agree in both the first
instruction and the remainder if they agree at all. -/
theorem encode_append_inj
    (first second : Instruction)
    (restFirst restSecond : Bytes)
    (readableFirst : first.IsReadable)
    (readableSecond : second.IsReadable)
    (equal : first.encode ++ restFirst = second.encode ++ restSecond) :
    first = second ∧ restFirst = restSecond := by
  obtain ⟨code, bytes, split, taken⟩ := first.splitFirst?_encode restFirst readableFirst
  obtain ⟨code', bytes', split', taken'⟩ := second.splitFirst?_encode restSecond readableSecond
  have same : code :: bytes = code' :: bytes' := by rw [← split, ← split', equal]
  obtain ⟨rfl, rfl⟩ := List.cons.inj same
  rw [taken] at taken'
  exact Prod.mk.inj (Option.some.inj taken')

/-- The announcement of a longer push is no shorter. -/
theorem length_pushHead_mono
    {shorter longer : Nat}
    (le : shorter ≤ longer) :
    (pushHead shorter).length ≤ (pushHead longer).length := by
  unfold pushHead
  split_ifs <;> simp <;> omega

/-- A push tells its data even where four bytes cannot measure them. -/
theorem encode_push_injective
    {left right : Bytes}
    (equal : (push left).encode = (push right).encode) :
    left = right := by
  have lengths := congrArg List.length equal
  simp only [encode, List.length_append] at lengths
  have sameLength : left.length = right.length := by
    rcases Nat.le_total left.length right.length with le | le
    · have := length_pushHead_mono le
      omega
    · have := length_pushHead_mono le
      omega
  simp only [encode, sameLength] at equal
  exact List.append_cancel_left equal

end Instruction

namespace Program

/-- Readable beginnings of equally many instructions are told apart by their
bytes. -/
theorem compile_append_inj
    (first second : Program)
    (restFirst restSecond : Bytes)
    (sameLength : first.length = second.length)
    (readableFirst : ∀ instruction ∈ first, instruction.IsReadable)
    (readableSecond : ∀ instruction ∈ second, instruction.IsReadable)
    (equal : first.compile ++ restFirst = second.compile ++ restSecond) :
    first = second ∧ restFirst = restSecond := by
  induction first generalizing second with
  | nil =>
      obtain rfl : second = [] := List.eq_nil_of_length_eq_zero sameLength.symm
      exact ⟨rfl, equal⟩
  | cons instruction rest inductionHypothesis =>
      cases second with
      | nil => contradiction
      | cons instruction' rest' =>
          simp only [compile_cons, List.append_assoc] at equal
          obtain ⟨rfl, equalRest⟩ := Instruction.encode_append_inj instruction instruction' _ _
            (readableFirst _ List.mem_cons_self) (readableSecond _ List.mem_cons_self) equal
          obtain ⟨rfl, remainder⟩ := inductionHypothesis rest' (Nat.succ.inj sameLength)
            (fun other present => readableFirst other (List.mem_cons_of_mem _ present))
            (fun other present => readableSecond other (List.mem_cons_of_mem _ present))
            equalRest
          exact ⟨rfl, remainder⟩

end Program

namespace LockingScript

/-- Scripts that a constructor makes or that bytes denote. -/
inductive IsBuilt : LockingScript → Prop
  | bounty
      (category : Int32)
      (content : Digest)
      (target : Target)
      (tag : Bytes)
      (userNonce : UInt32)
      (data : Bytes) :
      IsBuilt (bounty category content target tag userNonce data)
  | contract
      (category : Int32)
      (content : Digest)
      (target : Target)
      (tag : Bytes)
      (userNonce : UInt32)
      (data : Bytes)
      (minerAddress : Address) :
      IsBuilt (contract category content target tag userNonce data minerAddress)
  | read (bytes : Bytes) : IsBuilt (read bytes)

theorem isRegular_absent :
    absent.IsRegular :=
  ⟨Nat.zero_le _, fun _ => rfl⟩

/-- What a constructor lets through has a short tag. -/
theorem isRegular_tagged
    (script : LockingScript)
    (address : script.kind ≠ .contract → script.minerAddress = Address.absent) :
    script.tagged.IsRegular := by
  unfold tagged
  split_ifs with long
  · exact isRegular_absent
  · exact ⟨Nat.not_lt.mp long, address⟩

/-- The template answers only with regular scripts. -/
theorem isRegular_of_answer
    {program : Program}
    {script : LockingScript}
    (found : template.answer program = some script) :
    script.IsRegular := by
  obtain ⟨pushes, rfl⟩ := exists_pushes_of_answer found
  rw [pushes.answer_program] at found
  exact Option.some.inj found ▸ pushes.isRegular_script

/-- However a script was built, it is regular. -/
theorem IsBuilt.isRegular
    {script : LockingScript}
    (built : script.IsBuilt) :
    script.IsRegular := by
  cases built with
  | bounty => exact isRegular_tagged _ fun _ => rfl
  | contract => exact isRegular_tagged _ fun other => absurd rfl other
  | read bytes =>
      unfold LockingScript.read
      cases found : read? bytes with
      | none => exact isRegular_absent
      | some script =>
          obtain ⟨_, _, answered⟩ := Option.bind_eq_some_iff.mp found
          exact isRegular_of_answer answered

/-- The instructions before the free data. -/
def heading
    (script : LockingScript) :
    Program :=
  [.push marker, .op Opcode.drop] ++ script.addressPush ++
    [.push (LittleEndian.ofInt32 script.category), .push script.content.toList,
      .push script.target.toBytes, .push script.tag,
      .push (LittleEndian.ofUInt32 script.userNonce)]

theorem program_eq_heading
    (script : LockingScript) :
    script.program = script.heading ++ .push script.data :: Verification.program := by
  simp [program, heading]

/-- Every instruction before the free data tells what it is. -/
theorem isReadable_of_mem_heading
    (script : LockingScript)
    (measured : script.tag.length < UInt32.size)
    (instruction : Instruction)
    (present : instruction ∈ script.heading) :
    instruction.IsReadable := by
  -- With its data cut off, the script is one that four bytes can measure.
  refine isReadable_of_mem_program { script with data := [] }
    measured (Nat.two_pow_pos 32) instruction ?_
  rw [program_eq_heading]
  exact List.mem_append_left _ present

/-- Behind the marker a bounty goes on with four bytes, and a contract with
twenty. -/
theorem write_bounty_ne_write_contract
    {left right : LockingScript}
    (bounty : left.kind = .bounty)
    (contract : right.kind = .contract) :
    left.write ≠ right.write := by
  have sized (data : Bytes) (short : data.length ≤ 20) :
      ∀ instruction ∈ [Instruction.push marker, .op Opcode.drop, .push data],
        instruction.IsReadable := by
    have readable : (Instruction.push data).IsReadable := Nat.lt_of_le_of_lt short (by decide)
    simp only [List.forall_mem_cons, List.not_mem_nil, false_implies, implies_true, and_true]
    exact ⟨by decide, by decide, readable⟩
  intro equal
  unfold write at equal
  rw [if_pos (by simp [isValid, bounty, ScriptKind.isValid]),
    if_pos (by simp [isValid, contract, ScriptKind.isValid]), program_eq, program_eq] at equal
  simp only [addressPush, bounty, contract, reduceCtorEq, if_false, if_true, fieldPushes,
    List.nil_append, List.cons_append] at equal
  have opened := Program.compile_append_inj
    [.push marker, .op Opcode.drop, .push (LittleEndian.ofInt32 left.category)]
    [.push marker, .op Opcode.drop, .push right.minerAddress.toList] _ _ rfl
    (sized _ (by simp)) (sized _ (by simp)) (by simpa using equal)
  have lengths :
      (LittleEndian.ofInt32 left.category).length = right.minerAddress.toList.length := by
    have third := opened.1
    simp only [List.cons.injEq, Instruction.push.injEq, true_and, and_true] at third
    rw [third]
  simp at lengths

/-- The bytes of a work script tell its kind. -/
theorem kind_eq_of_write_eq
    {left right : LockingScript}
    (validLeft : left.isValid = true)
    (validRight : right.isValid = true)
    (equal : left.write = right.write) :
    left.kind = right.kind := by
  cases leftKind : left.kind with
  | invalid => simp [isValid, leftKind, ScriptKind.isValid] at validLeft
  | bounty =>
      cases rightKind : right.kind with
      | invalid => simp [isValid, rightKind, ScriptKind.isValid] at validRight
      | bounty => rfl
      | contract => exact absurd equal (write_bounty_ne_write_contract leftKind rightKind)
  | contract =>
      cases rightKind : right.kind with
      | invalid => simp [isValid, rightKind, ScriptKind.isValid] at validRight
      | bounty => exact absurd equal.symm (write_bounty_ne_write_contract rightKind leftKind)
      | contract => rfl

/-- Whether two scripts agree in everything but the miner. -/
structure SharesFields
    (left right : LockingScript) : Prop where
  kind : left.kind = right.kind
  category : left.category = right.category
  content : left.content = right.content
  target : left.target = right.target
  tag : left.tag = right.tag
  userNonce : left.userNonce = right.userNonce
  data : left.data = right.data

/-- The bytes of work scripts whose tags four bytes can measure tell their fields,
and the miner of a contract. -/
theorem sharesFields_of_write_eq
    {left right : LockingScript}
    (validLeft : left.isValid = true)
    (validRight : right.isValid = true)
    (measuredLeft : left.tag.length < UInt32.size)
    (measuredRight : right.tag.length < UInt32.size)
    (equal : left.write = right.write) :
    left.SharesFields right ∧ left.addressPush = right.addressPush := by
  have sameKind := kind_eq_of_write_eq validLeft validRight equal
  unfold write at equal
  rw [if_pos validLeft, if_pos validRight, program_eq_heading, program_eq_heading,
    Program.compile_append, Program.compile_append, Program.compile_cons,
    Program.compile_cons] at equal
  obtain ⟨sameHeading, sameRest⟩ := Program.compile_append_inj left.heading right.heading _ _
    (by simp [heading, addressPush, sameKind, apply_ite List.length])
    (left.isReadable_of_mem_heading measuredLeft)
    (right.isReadable_of_mem_heading measuredRight) equal
  have sameData : left.data = right.data :=
    Instruction.encode_push_injective (List.append_cancel_right sameRest)
  obtain ⟨sameAddress, sameFields⟩ : left.addressPush = right.addressPush ∧
      left.fieldPushes.dropLast = right.fieldPushes.dropLast := by
    simp only [heading, List.cons_append, List.nil_append, List.cons.injEq,
      true_and] at sameHeading
    exact List.append_inj sameHeading
      (by simp [addressPush, sameKind, apply_ite List.length])
  simp only [fieldPushes, List.dropLast, List.cons.injEq, Instruction.push.injEq,
    and_true] at sameFields
  obtain ⟨category, content, target, tag, userNonce⟩ := sameFields
  have sameCategory := congrArg LittleEndian.toInt32 category
  have sameTarget := congrArg Target.ofBytes target
  have sameNonce := congrArg LittleEndian.toUInt32 userNonce
  simp only [LittleEndian.toInt32_ofInt32, Target.ofBytes_toBytes,
    LittleEndian.toUInt32_ofUInt32] at sameCategory sameTarget sameNonce
  exact ⟨⟨sameKind, sameCategory, FixedBytes.toList_injective content, sameTarget, tag,
    sameNonce, sameData⟩, sameAddress⟩

/-- The bytes of regular work scripts tell the scripts apart. -/
theorem write_injective
    {left right : LockingScript}
    (validLeft : left.isValid = true)
    (validRight : right.isValid = true)
    (regularLeft : left.IsRegular)
    (regularRight : right.IsRegular)
    (equal : left.write = right.write) :
    left = right := by
  obtain ⟨⟨sameKind, category, content, target, tag, userNonce, data⟩, sameAddress⟩ :=
    sharesFields_of_write_eq validLeft validRight regularLeft.tag_lt regularRight.tag_lt equal
  have sameMiner : left.minerAddress = right.minerAddress := by
    by_cases bound : right.kind = .contract
    · simp only [addressPush, sameKind, bound, if_true, List.cons.injEq, Instruction.push.injEq,
        and_true] at sameAddress
      exact FixedBytes.toList_injective sameAddress
    · rw [regularRight.address_eq bound, regularLeft.address_eq (sameKind ▸ bound)]
  cases left
  cases right
  simp only at sameKind category content target tag userNonce data sameMiner
  subst sameKind category content target tag userNonce data sameMiner
  rfl

/-- Names without collisions tell regular work scripts apart. -/
theorem eq_of_id_eq
    {left right : LockingScript}
    (validLeft : left.isValid = true)
    (validRight : right.isValid = true)
    (regularLeft : left.IsRegular)
    (regularRight : right.IsRegular)
    (noCollision : hash256 left.write = hash256 right.write → left.write = right.write)
    (equal : left.id = right.id) :
    left = right := by
  unfold id at equal
  rw [if_pos validLeft, if_pos validRight] at equal
  exact write_injective validLeft validRight regularLeft regularRight (noCollision equal)

end LockingScript
end WorkMarket
