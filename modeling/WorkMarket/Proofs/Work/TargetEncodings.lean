import WorkMarket.Proofs.Pow.NonceSearch
import WorkMarket.Proofs.Work.Recovery

/-!
# What the encoding of a target tells apart

Targets of one magnitude are the same to whoever compares scripts or puzzles,
but a target is written as it was encoded, and nothing normalizes it.  So the
bytes of a script tell it from all scripts but itself, and equivalent scripts
share their bytes exactly if their targets are encoded alike; likewise the
candidates of equivalent puzzles, which are the same but for the four bytes of
the target.
-/

namespace WorkMarket
namespace LockingScript

variable {left right : LockingScript}

/-- A work script has bytes. -/
theorem write_ne_nil
    (valid : left.isValid = true) :
    left.write ≠ [] := by
  have positive := (Instruction.push marker).length_encode_pos
  intro none
  rw [write, if_pos valid, program_eq, Program.compile_cons] at none
  rw [(List.append_eq_nil_iff.mp none).1] at positive
  exact Nat.not_lt_zero 0 positive

/-- What is built is the absent script unless it is a work script. -/
theorem IsBuilt.eq_absent
    (built : left.IsBuilt)
    (invalid : left.isValid = false) :
    left = absent := by
  have taggedAbsent (script : LockingScript) (valid : script.isValid = true)
      (invalid : script.tagged.isValid = false) : script.tagged = absent := by
    unfold tagged at invalid ⊢
    split_ifs at invalid ⊢
    · rfl
    · rw [valid] at invalid
      contradiction
  cases built with
  | bounty => exact taggedAbsent _ rfl invalid
  | contract => exact taggedAbsent _ rfl invalid
  | read bytes =>
      unfold LockingScript.read at invalid ⊢
      cases found : read? bytes with
      | none => rfl
      | some script =>
          obtain ⟨_, _, answered⟩ := Option.bind_eq_some_iff.mp found
          obtain ⟨pushes, rfl⟩ := exists_pushes_of_answer answered
          rw [pushes.answer_program] at answered
          rw [found, Option.getD_some, ← Option.some.inj answered,
            pushes.isValid_script] at invalid
          contradiction

/-- The bytes of built scripts tell the scripts apart. -/
theorem IsBuilt.eq_of_write_eq
    (leftBuilt : left.IsBuilt)
    (rightBuilt : right.IsBuilt)
    (equal : left.write = right.write) :
    left = right := by
  have absentWrite : absent.write = [] := rfl
  cases leftValid : left.isValid with
  | true =>
      cases rightValid : right.isValid with
      | true =>
          exact write_injective leftValid rightValid leftBuilt.isRegular rightBuilt.isRegular
            equal
      | false =>
          rw [rightBuilt.eq_absent rightValid] at equal
          exact absurd equal (write_ne_nil leftValid)
  | false =>
      obtain rfl := leftBuilt.eq_absent leftValid
      cases rightValid : right.isValid with
      | true => exact absurd equal.symm (write_ne_nil rightValid)
      | false => exact (rightBuilt.eq_absent rightValid).symm

/-- Scripts are the same exactly if they are equivalent and their targets are
encoded alike. -/
theorem eq_iff_equivalent
    : left = right ↔ left.equivalent right = true ∧ left.target = right.target := by
  constructor
  · rintro rfl
    simp [equivalent, Target.equivalent]
  · rintro ⟨same, encoded⟩
    simp only [equivalent, Bool.and_eq_true, decide_eq_true_eq] at same
    cases left
    cases right
    simp_all

end LockingScript

namespace Puzzle

variable {left right : Puzzle}

/-- Puzzles are the same exactly if they are equivalent and their targets are
encoded alike. -/
theorem eq_iff_equivalent
    : left = right ↔ left.equivalent right = true ∧ left.target = right.target := by
  constructor
  · rintro rfl
    exact ⟨left.equivalent_refl, rfl⟩
  · rintro ⟨same, encoded⟩
    obtain ⟨target, -, rfl⟩ := equivalent_iff_exists_target.mp same
    exact congrArg (fun target => { left with target := target }) encoded

/-- The candidates of equivalent puzzles are the same before the target and
behind it. -/
theorem toList_ofSolution_of_equivalent
    (same : left.equivalent right = true)
    (solution : Solution) :
    ∃ before : FixedBytes 72, ∀ puzzle, puzzle = left ∨ puzzle = right →
      (Candidate.ofSolution puzzle solution).bytes.toList =
        before.toList ++ puzzle.target.toBytes ++ LittleEndian.ofUInt32 solution.nonce := by
  obtain ⟨target, -, rfl⟩ := equivalent_iff_exists_target.mp same
  -- The root and the fields before the target are read off the rest of a puzzle.
  refine ⟨⟨_, Candidate.length_beforeTarget left
    (left.merkleRoot solution.extraNonce₁ solution.extraNonce₂) solution.timestamp⟩, ?_⟩
  rintro puzzle (rfl | rfl)
  · rw [Candidate.ofSolution, Candidate.toList_withRoot]
  · rw [Candidate.ofSolution, Candidate.toList_withRoot]
    rfl

/-- A candidate shows how the target of its puzzle is encoded. -/
theorem target_eq_of_ofSolution_eq
    {solution : Solution}
    (equal : Candidate.ofSolution left solution = Candidate.ofSolution right solution) :
    left.target = right.target := by
  have targets := congrArg Candidate.target equal
  rwa [Candidate.ofSolution, Candidate.ofSolution, Candidate.target_withRoot,
    Candidate.target_withRoot] at targets

end Puzzle

namespace Target

/-- Bytes tell equivalents apart by the encodings of their targets and by
nothing else.  Built scripts have the same bytes, and then the same name,
exactly if they are equivalent and their targets are encoded alike.  Equivalent
puzzles have candidates that agree before the target and behind it; they are
the same exactly if the targets are encoded alike, and what solves one puzzle
then solves the other. -/
theorem encodings_tell_apart
    : (∀ left right : LockingScript, left.IsBuilt → right.IsBuilt →
        (left.write = right.write ↔ left.equivalent right = true ∧ left.target = right.target) ∧
        (left.write = right.write → left.id = right.id)) ∧
      ∀ left right : Puzzle, left.equivalent right = true → ∀ solution : Solution,
        (∃ before : FixedBytes 72, ∀ puzzle, puzzle = left ∨ puzzle = right →
          (Candidate.ofSolution puzzle solution).bytes.toList =
            before.toList ++ puzzle.target.toBytes ++ LittleEndian.ofUInt32 solution.nonce) ∧
        (Candidate.ofSolution left solution = Candidate.ofSolution right solution ↔
          left.target = right.target) ∧
        (left.target = right.target →
          ((⟨left, solution⟩ : WorkProof).isValid = true ↔
            (⟨right, solution⟩ : WorkProof).isValid = true)) := by
  constructor
  · intro left right leftBuilt rightBuilt
    have told := leftBuilt.eq_of_write_eq rightBuilt
    refine ⟨⟨fun equal => LockingScript.eq_iff_equivalent.mp (told equal), fun same => ?_⟩,
      fun equal => congrArg LockingScript.id (told equal)⟩
    exact congrArg LockingScript.write (LockingScript.eq_iff_equivalent.mpr same)
  · intro left right same solution
    have equal (encoded : left.target = right.target) : left = right :=
      Puzzle.eq_iff_equivalent.mpr ⟨same, encoded⟩
    refine ⟨Puzzle.toList_ofSolution_of_equivalent same solution,
      ⟨Puzzle.target_eq_of_ofSolution_eq, fun encoded => ?_⟩, fun encoded => ?_⟩
    · rw [equal encoded]
    · rw [equal encoded]

/-- A magnitude that two encodings share, in the one with the larger
exponent. -/
def sharedUpper : Target := ofParts 32 0x00ffff

/-- The same magnitude with the smaller exponent. -/
def sharedLower : Target := ofParts 31 0xffff00

/-- Two bounties for one magnitude have bytes of their own, and so have the
candidates of two puzzles for it. -/
theorem encodings_tell_apart_shared
    : (LockingScript.bounty 0 Digest.absent sharedUpper [] 0 []).write ≠
        (LockingScript.bounty 0 Digest.absent sharedLower [] 0 []).write ∧
      (⟨0, Digest.absent, sharedUpper, .empty, [], []⟩ : Puzzle).equivalent
        ⟨0, Digest.absent, sharedLower, .empty, [], []⟩ = true ∧
      Candidate.ofSolution ⟨0, Digest.absent, sharedUpper, .empty, [], []⟩ ⟨0, 340, 0, 0⟩ ≠
        Candidate.ofSolution ⟨0, Digest.absent, sharedLower, .empty, [], []⟩ ⟨0, 340, 0, 0⟩ := by
  obtain ⟨scripts, puzzles⟩ := encodings_tell_apart
  have apart : sharedUpper ≠ sharedLower := by decide
  have same : (⟨0, Digest.absent, sharedUpper, .empty, [], []⟩ : Puzzle).equivalent
      ⟨0, Digest.absent, sharedLower, .empty, [], []⟩ = true := by decide
  refine ⟨fun equal => ?_, same, fun equal => ?_⟩
  · exact apart ((scripts _ _ (.bounty 0 Digest.absent sharedUpper [] 0 [])
      (.bounty 0 Digest.absent sharedLower [] 0 [])).1.mp equal).2
  · exact apart ((puzzles _ _ same ⟨0, 340, 0, 0⟩).2.1.mp equal)

/-- Neither equivalent scripts have the same bytes or name, nor does what
solves a puzzle solve an equivalent one. -/
theorem not_bytes_eq_of_equivalent
    : ((LockingScript.bounty 0 Digest.absent sharedUpper [] 0 []).equivalent
          (LockingScript.bounty 0 Digest.absent sharedLower [] 0 []) = true ∧
        (LockingScript.bounty 0 Digest.absent sharedUpper [] 0 []).write ≠
          (LockingScript.bounty 0 Digest.absent sharedLower [] 0 []).write ∧
        (LockingScript.bounty 0 Digest.absent sharedUpper [] 0 []).id ≠
          (LockingScript.bounty 0 Digest.absent sharedLower [] 0 []).id) ∧
      (⟨0, Digest.absent, sharedUpper, .empty, [], []⟩ : Puzzle).equivalent
          ⟨0, Digest.absent, sharedLower, .empty, [], []⟩ = true ∧
        (⟨⟨0, Digest.absent, sharedUpper, .empty, [], []⟩, ⟨0, 340, 0, 0⟩⟩ : WorkProof).isValid =
          true ∧
        (⟨⟨0, Digest.absent, sharedLower, .empty, [], []⟩, ⟨0, 340, 0, 0⟩⟩ : WorkProof).isValid =
          false := by
  refine ⟨⟨?_, ?_, ?_⟩, ?_, ?_, ?_⟩ <;> decide +kernel

end Target

end WorkMarket
