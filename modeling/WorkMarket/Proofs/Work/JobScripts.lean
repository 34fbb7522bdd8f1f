import WorkMarket.Proofs.Work.Recovery

/-!
# Jobs and scripts determine each other

Neither the tag nor the free data is marked off in a puzzle.  But the address
has the last twenty bytes of the header and the user nonce the first four of the
body, so a puzzle that holds both is put together again from the script and the
address that are read off it.  Only a tag that is too long for a script, and a
path up a hash tree, are not in the script.
-/

namespace WorkMarket
namespace Job

variable {job : Job}

/-- A header ends with the address. -/
theorem header_eq
    (filled : isFilled job.puzzle = true) :
    job.puzzle.header.take (job.puzzle.header.length - 20) ++ job.minerAddress.toList =
      job.puzzle.header := by
  simp only [isFilled, Bool.and_eq_true, decide_eq_true_eq] at filled
  have sized : (job.puzzle.header.drop (job.puzzle.header.length - 20)).length = 20 := by
    rw [List.length_drop]
    omega
  have address : job.minerAddress.toList =
      job.puzzle.header.drop (job.puzzle.header.length - 20) := by
    rw [minerAddress, FixedBytes.ofList?, dif_pos sized, Option.getD_some]
  rw [address, List.take_append_drop]

/-- A body begins with the user nonce. -/
theorem body_eq
    (filled : isFilled job.puzzle = true) :
    LittleEndian.ofUInt32 (LittleEndian.toUInt32 (job.puzzle.body.take 4)) ++
        job.puzzle.body.drop 4 =
      job.puzzle.body := by
  simp only [isFilled, Bool.and_eq_true, decide_eq_true_eq] at filled
  rw [LittleEndian.ofUInt32_toUInt32 _ (List.length_take_of_le filled.2),
    List.take_append_drop]

/-- The script of a job with a header of at most forty bytes. -/
theorem lockingScript_eq
    (valid : job.kind.isValid = true)
    (filled : isFilled job.puzzle = true)
    (short : job.puzzle.header.length ≤ 40) :
    job.lockingScript =
      ⟨job.kind, job.puzzle.category, job.puzzle.content, job.puzzle.target,
        job.puzzle.header.take (job.puzzle.header.length - 20),
        LittleEndian.toUInt32 (job.puzzle.body.take 4), job.puzzle.body.drop 4,
        if job.kind = .contract then job.minerAddress else Address.absent⟩ := by
  have shortTag :
      (job.puzzle.header.take (job.puzzle.header.length - 20)).length ≤
        LockingScript.maxTagSize := by
    rw [List.length_take, LockingScript.maxTagSize]
    omega
  unfold lockingScript
  rw [if_pos filled]
  cases kind : job.kind with
  | invalid =>
      rw [kind] at valid
      contradiction
  | bounty => exact LockingScript.tagged_of_le _ shortTag
  | contract => exact LockingScript.tagged_of_le _ shortTag

/-- The script and the address of a job give its puzzle, but for the path. -/
theorem ofScript_lockingScript
    (valid : job.kind.isValid = true)
    (filled : isFilled job.puzzle = true)
    (short : job.puzzle.header.length ≤ 40) :
    ofScript job.lockingScript job.minerAddress =
      { job with puzzle := { job.puzzle with path := MerklePath.empty } } := by
  have script := lockingScript_eq valid filled short
  have suited : IsFor job.lockingScript job.minerAddress := by
    rw [script]
    exact ⟨valid, fun isContract => if_pos isContract⟩
  rw [ofScript_eq suited, script, puzzleOf]
  simp only [header_eq filled, body_eq filled]

/-- Scripts and jobs determine each other.  What a constructor builds with a
short tag is found again in its job for a miner, and so is the miner; the job
can be worked on exactly if the target is valid.  Conversely a job without a
path, with room for the address in its header and for the user nonce in its
body, is the job that its script gives its miner, unless the rest of the header
is too long for a tag. -/
theorem determined_by_script :
    (∀ (category : Int32) (content : Digest) (target : Target) (tag : Bytes)
          (userNonce : UInt32) (data : Bytes) (minerAddress address : Address)
          (script : LockingScript),
        tag.length ≤ 20 →
        script = .bounty category content target tag userNonce data ∨
          script = .contract category content target tag userNonce data minerAddress ∧
            address = minerAddress →
        (ofScript script address).lockingScript = script ∧
          (ofScript script address).minerAddress = address ∧
          ((ofScript script address).isValid = true ↔ script.target.isValid = true)) ∧
      ∀ job : Job,
        job.kind.isValid = true →
        job.puzzle.path = MerklePath.empty →
        20 ≤ job.puzzle.header.length →
        job.puzzle.header.length ≤ 40 →
        4 ≤ job.puzzle.body.length →
        ofScript job.lockingScript job.minerAddress = job := by
  constructor
  · intro category content target tag userNonce data minerAddress address script shortTag built
    have suited : IsFor script address ∧ script.IsRegular := by
      rcases built with rfl | ⟨rfl, rfl⟩
      · rw [LockingScript.bounty, LockingScript.tagged_of_le _ shortTag]
        exact ⟨⟨rfl, fun other => by contradiction⟩, shortTag, fun _ => rfl⟩
      · rw [LockingScript.contract, LockingScript.tagged_of_le _ shortTag]
        exact ⟨⟨rfl, fun _ => rfl⟩, shortTag, fun other => absurd rfl other⟩
    obtain ⟨isFor, regular⟩ := suited
    refine ⟨lockingScript_ofScript isFor regular, minerAddress_ofScript isFor, ?_⟩
    rw [isValid_ofScript isFor]
  · intro job valid noPath long short body
    have filled : isFilled job.puzzle = true := by
      simp [isFilled, long, body]
    rw [ofScript_lockingScript valid filled short, ← noPath]

/-- A header of forty bytes holds the longest tag.  The script of a contract
with it, found again from its job, and a job that was not made from a script. -/
theorem determined_by_script_longestTag :
    (let script := LockingScript.contract (-1) Digest.absent ⟨0xff000000⟩ (List.replicate 20 3)
          7 [8] (FixedBytes.filled 20 9)
        let job := ofScript script (FixedBytes.filled 20 9)
        (List.replicate 20 (3 : UInt8)).length ≤ 20 ∧ job.lockingScript = script ∧
          job.minerAddress = FixedBytes.filled 20 9 ∧ job.isValid = false) ∧
      let job : Job := ⟨.bounty, ⟨5, Digest.absent, Target.easiest, MerklePath.empty,
        List.replicate 40 3, [1, 2, 3, 4]⟩⟩
      job.kind.isValid = true ∧ job.puzzle.path = MerklePath.empty ∧
        20 ≤ job.puzzle.header.length ∧ job.puzzle.header.length ≤ 40 ∧
        4 ≤ job.puzzle.body.length ∧ ofScript job.lockingScript job.minerAddress = job := by
  obtain ⟨fromScript, fromJob⟩ := determined_by_script
  have shortTag : (List.replicate 20 (3 : UInt8)).length ≤ 20 := by decide
  obtain ⟨found, named, workable⟩ := fromScript (-1) Digest.absent ⟨0xff000000⟩
    (List.replicate 20 3) 7 [8] (FixedBytes.filled 20 9) (FixedBytes.filled 20 9) _ shortTag
    (Or.inr ⟨rfl, rfl⟩)
  refine ⟨⟨shortTag, found, named, ?_⟩, by decide, rfl, by decide, by decide, by decide,
    fromJob _ (by decide) rfl (by decide) (by decide) (by decide)⟩
  rw [Bool.eq_false_iff]
  intro valid
  exact absurd (workable.mp valid) (by decide)

end Job
end WorkMarket
