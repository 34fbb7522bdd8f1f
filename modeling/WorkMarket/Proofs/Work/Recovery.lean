import WorkMarket.Proofs.Pow.PuzzleClasses
import WorkMarket.Proofs.Script.Naming
import WorkMarket.Work.Job

/-!
# A job tells the script it comes from

The address takes the last twenty bytes of a header and the user nonce the
first four of a body, so both are found again, and with them the script.  A
job is therefore named as its script is, and equivalent puzzles are for the
same miner.
-/

namespace WorkMarket
namespace Job

variable {script : LockingScript} {address : Address}

/-- Whether a script gives work to a miner: a contract only to the one it is
bound to. -/
def IsFor
    (script : LockingScript)
    (address : Address) : Prop :=
  script.isValid = true ∧ (script.kind = .contract → script.minerAddress = address)

theorem ofScript_eq
    (suited : IsFor script address) :
    ofScript script address = ⟨script.kind, puzzleOf script address⟩ := by
  obtain ⟨valid, bound⟩ := suited
  unfold ofScript
  cases kind : script.kind with
  | invalid => simp [LockingScript.isValid, kind, ScriptKind.isValid] at valid
  | bounty => rfl
  | contract => simp only [bound kind, if_true]

theorem kind_ofScript
    (suited : IsFor script address) :
    (ofScript script address).kind = script.kind := by
  rw [ofScript_eq suited]

theorem isFilled_puzzleOf
    (script : LockingScript)
    (address : Address) :
    isFilled (puzzleOf script address) = true := by
  simp [isFilled, puzzleOf]

/-- A job can be worked on exactly if its target is valid. -/
theorem isValid_ofScript
    (suited : IsFor script address) :
    (ofScript script address).isValid = script.target.isValid := by
  rw [ofScript_eq suited, isValid, isFilled_puzzleOf, Bool.and_true]
  change (script.isValid && script.target.isValid) = script.target.isValid
  rw [suited.1, Bool.true_and]

theorem minerAddress_puzzleOf
    (kind : ScriptKind)
    (script : LockingScript)
    (address : Address) :
    minerAddress ⟨kind, puzzleOf script address⟩ = address := by
  simp [minerAddress, puzzleOf]

/-- The address is found again at the end of the header. -/
theorem minerAddress_ofScript
    (suited : IsFor script address) :
    (ofScript script address).minerAddress = address := by
  rw [ofScript_eq suited, minerAddress_puzzleOf]

/-- Every field of a regular script is found again in its job. -/
theorem lockingScript_ofScript
    (suited : IsFor script address)
    (regular : script.IsRegular) :
    (ofScript script address).lockingScript = script := by
  have short : ¬LockingScript.maxTagSize < script.tag.length :=
    Nat.not_lt.mpr regular.tag_le
  rw [ofScript_eq suited, lockingScript, if_pos (isFilled_puzzleOf script address),
    minerAddress_puzzleOf]
  have tag : (puzzleOf script address).header.take
      ((puzzleOf script address).header.length - 20) = script.tag := by
    simp [puzzleOf]
  have nonce : (puzzleOf script address).body.take 4 =
      LittleEndian.ofUInt32 script.userNonce := by
    simp [puzzleOf]
  have data : (puzzleOf script address).body.drop 4 = script.data := by
    simp [puzzleOf]
  simp only [tag, nonce, data]
  obtain ⟨valid, bound⟩ := suited
  have absent := regular.address_eq
  obtain ⟨kind, category, content, target, tag, userNonce, data, minerAddress⟩ := script
  cases kind with
  | invalid => contradiction
  | bounty =>
      obtain rfl : minerAddress = Address.absent := absent (by simp)
      simp [LockingScript.bounty, LockingScript.tagged, puzzleOf, short]
  | contract =>
      obtain rfl : minerAddress = address := bound rfl
      simp [LockingScript.contract, LockingScript.tagged, puzzleOf, short]

/-- A job is named as its script is. -/
theorem id_ofScript
    (suited : IsFor script address)
    (regular : script.IsRegular) :
    (ofScript script address).id = script.id := by
  rw [Job.id, lockingScript_ofScript suited regular]

/-- Puzzles with the same header are for the same miner. -/
theorem address_eq_of_header_eq
    {other : LockingScript}
    {otherAddress : Address}
    (suited : IsFor script address)
    (otherSuited : IsFor other otherAddress)
    (headers : (ofScript script address).puzzle.header =
      (ofScript other otherAddress).puzzle.header) :
    address = otherAddress := by
  rw [← minerAddress_ofScript suited, ← minerAddress_ofScript otherSuited]
  simp only [minerAddress, headers]

/-- Equivalent puzzles are for the same miner. -/
theorem address_eq_of_equivalent
    {other : LockingScript}
    {otherAddress : Address}
    (suited : IsFor script address)
    (otherSuited : IsFor other otherAddress)
    (equivalent :
      (ofScript script address).puzzle.equivalent (ofScript other otherAddress).puzzle = true) :
    address = otherAddress :=
  address_eq_of_header_eq suited otherSuited (Puzzle.header_eq_of_equivalent equivalent)

end Job
end WorkMarket
