import WorkMarket.Pow.NonceSearch
import WorkMarket.Proofs.Pow.HashThreshold

/-!
# What the searcher finds is a solution

A candidate carries the target of its puzzle, so a proof is valid exactly if
the double hash lies below that target's magnitude.  The searcher only
exchanges the last four bytes of one candidate; what it stops at is the
candidate of the solution it returns.
-/

namespace WorkMarket
namespace Candidate

/-- The bytes before the target. -/
def beforeTarget
    (puzzle : Puzzle)
    (root : Digest)
    (timestamp : UInt32) :
    Bytes :=
  LittleEndian.ofInt32 puzzle.category ++ puzzle.content.toList ++ root.toList ++
    LittleEndian.ofUInt32 timestamp

theorem length_beforeTarget
    (puzzle : Puzzle)
    (root : Digest)
    (timestamp : UInt32) :
    (beforeTarget puzzle root timestamp).length = 72 := by
  simp [beforeTarget]

theorem toList_withRoot
    (puzzle : Puzzle)
    (root : Digest)
    (timestamp nonce : UInt32) :
    (withRoot puzzle root timestamp nonce).bytes.toList =
      beforeTarget puzzle root timestamp ++ puzzle.target.toBytes ++
        LittleEndian.ofUInt32 nonce :=
  rfl

/-- A candidate carries the target of its puzzle. -/
theorem target_withRoot
    (puzzle : Puzzle)
    (root : Digest)
    (timestamp nonce : UInt32) :
    (withRoot puzzle root timestamp nonce).target = puzzle.target := by
  rw [target, toList_withRoot, List.append_assoc,
    List.drop_left' (length_beforeTarget puzzle root timestamp),
    List.take_left' (Target.length_toBytes puzzle.target), Target.ofBytes_toBytes]

/-- The nonce takes the last four bytes and nothing else. -/
theorem setNonce_withRoot
    (puzzle : Puzzle)
    (root : Digest)
    (timestamp nonce other : UInt32) :
    (withRoot puzzle root timestamp nonce).setNonce other =
      withRoot puzzle root timestamp other := by
  have size : (beforeTarget puzzle root timestamp ++ puzzle.target.toBytes).length = 76 := by
    rw [List.length_append, length_beforeTarget, Target.length_toBytes]
  have kept : (withRoot puzzle root timestamp nonce).bytes.toList.take 76 =
      beforeTarget puzzle root timestamp ++ puzzle.target.toBytes := by
    rw [toList_withRoot, List.take_left' size]
  simp only [setNonce, kept]
  rfl

/-- The candidate of a solution becomes that of the solution with another nonce. -/
theorem setNonce_ofSolution
    (puzzle : Puzzle)
    (solution : Solution)
    (nonce : UInt32) :
    (ofSolution puzzle solution).setNonce nonce = ofSolution puzzle (solution.withNonce nonce) :=
  setNonce_withRoot puzzle _ _ _ nonce

/-- The nonce that is set last remains. -/
theorem setNonce_setNonce
    (candidate : Candidate)
    (first second : UInt32) :
    (candidate.setNonce first).setNonce second = candidate.setNonce second := by
  simp [setNonce]

/-- The nonce that is set can be read off. -/
@[simp] theorem nonce_setNonce
    (candidate : Candidate)
    (other : UInt32) :
    (candidate.setNonce other).nonce = other := by
  have size : (candidate.bytes.toList.take 76).length = 76 := by simp
  rw [nonce, setNonce, List.drop_left' size, LittleEndian.toUInt32_ofUInt32]

@[simp] theorem nonce_ofSolution
    (puzzle : Puzzle)
    (solution : Solution) :
    (ofSolution puzzle solution).nonce = solution.nonce := by
  rw [ofSolution, ← setNonce_withRoot _ _ _ solution.nonce, nonce_setNonce]

end Candidate

namespace WorkProof

/-- A proof is valid exactly if the double hash of its candidate lies below
the magnitude of the target. -/
theorem isValid_iff
    (proof : WorkProof) :
    proof.isValid = true ↔ proof.candidate.hash.toNat < proof.puzzle.target.magnitude := by
  have carried : proof.candidate.target = proof.puzzle.target :=
    Candidate.target_withRoot _ _ _ _
  rw [isValid, Candidate.isValid, carried, Puzzle.isValid, Bool.and_eq_true, Bool.and_eq_true,
    Target.isMetBy_iff]
  constructor
  · rintro ⟨_, _, below⟩
    exact below
  · intro below
    have valid := Target.isValid_of_lt_magnitude below
    exact ⟨valid, valid, below⟩

end WorkProof

namespace HashMeter

/-- A scan stops at a nonce whose hash meets the target, and otherwise goes on
with the next one. -/
theorem scan_succ
    (remaining : Nat)
    (nonce : UInt32)
    (candidate : Candidate)
    (meter : HashMeter) :
    scan (remaining + 1) nonce candidate meter =
      if (candidate.setNonce nonce).target.isMetBy (candidate.setNonce nonce).hash then
        (some nonce, ⟨meter.count + 1⟩)
      else scan remaining (nonce + 1) (candidate.setNonce nonce) ⟨meter.count + 1⟩ :=
  rfl

/-- The nonce that a scan stops at makes the hash meet the target. -/
theorem isMetBy_of_scan_eq_some
    {remaining : Nat}
    {nonce found : UInt32}
    {candidate : Candidate}
    {meter : HashMeter}
    (stopped : (scan remaining nonce candidate meter).1 = some found) :
    (candidate.setNonce found).target.isMetBy (candidate.setNonce found).hash = true := by
  induction remaining generalizing nonce candidate meter with
  | zero => contradiction
  | succ remaining inductionHypothesis =>
      rw [scan_succ] at stopped
      split at stopped
      · next meets =>
        obtain rfl : nonce = found := Option.some.inj stopped
        exact meets
      · have later := inductionHypothesis stopped
        rwa [Candidate.setNonce_setNonce] at later

/-- What is found solves the puzzle. -/
theorem isValid_of_search_eq_some
    {meter : HashMeter}
    {puzzle : Puzzle}
    {template found : Solution}
    {count : Nat}
    (answered : (meter.search puzzle template count).1 = some found) :
    (⟨puzzle, found⟩ : WorkProof).isValid = true := by
  unfold search searchWith at answered
  split at answered
  · obtain ⟨nonce, stopped, rfl⟩ := Option.map_eq_some_iff.mp answered
    have meets := isMetBy_of_scan_eq_some stopped
    rw [Candidate.setNonce_withRoot, Candidate.target_withRoot, Target.isMetBy_iff] at meets
    exact (WorkProof.isValid_iff _).mpr meets
  · contradiction

end HashMeter
end WorkMarket
