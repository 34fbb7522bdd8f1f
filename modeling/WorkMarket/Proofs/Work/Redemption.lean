import WorkMarket.Proofs.Pow.NonceSearch
import WorkMarket.Proofs.Script.UnlockingRoundTrip
import WorkMarket.Proofs.Work.Recovery

/-!
# Redeeming a script through its bytes

Both sides of a redemption are only ever seen as bytes.  Neither loses anything
on the way, so the proof that is read off them is for the very puzzle that the
miner was given, with the very solution that was found; and it is valid
exactly if the hash lies below the published target.
-/

namespace WorkMarket
namespace LockingScript

variable {script : LockingScript} {address : Address} {signature : Signature}
variable {key : PublicKey} {solution : Solution}

/-- What redeeming a script for a miner comes to.  The bytes of both sides give
back the miner's puzzle and the solution, the hash alone decides whether the
solution counts, and one that was searched for does. -/
structure IsRedeemedFor
    (script : LockingScript)
    (address : Address)
    (signature : Signature)
    (key : PublicKey)
    (solution : Solution) : Prop where
  paired :
    workProof (read script.write)
        (UnlockingScript.read
          (UnlockingScript.ofSolution signature key solution script.kind).write) =
      some ⟨(Job.ofScript script address).puzzle, solution⟩
  decided :
    (⟨(Job.ofScript script address).puzzle, solution⟩ : WorkProof).isValid = true ↔
      (Candidate.ofSolution (Job.ofScript script address).puzzle solution).hash.toNat <
        script.target.magnitude
  sought : ∀ (meter : HashMeter) (template : Solution) (count : Nat),
    (meter.search (Job.ofScript script address).puzzle template count).1 = some solution →
      (⟨(Job.ofScript script address).puzzle, solution⟩ : WorkProof).isValid = true

/-- A script pairs with the script that a solution to it is wrapped into, given
that the miner of a bounty owns the key. -/
theorem workProof_ofSolution
    (suited : Job.IsFor script address)
    (owned : script.kind = .bounty → address = key.address)
    (solvable : script.target.isValid = true) :
    workProof script (UnlockingScript.ofSolution signature key solution script.kind) =
      some ⟨(Job.ofScript script address).puzzle, solution⟩ := by
  have kinds := UnlockingScript.kind_ofSolution signature key solution script.kind
  have pairs : script.isValid = true ∧
      (UnlockingScript.ofSolution signature key solution script.kind).isValid = true ∧
      script.kind = (UnlockingScript.ofSolution signature key solution script.kind).kind := by
    refine ⟨suited.1, ?_, kinds.symm⟩
    rw [UnlockingScript.isValid, kinds]
    exact suited.1
  -- A bounty's miner is named by the redeeming side, a contract's by the script.
  have named : (if script.kind = .bounty then
      (UnlockingScript.ofSolution signature key solution script.kind).minerAddress
      else script.minerAddress) = address := by
    cases kind : script.kind with
    | invalid =>
        have valid := suited.1
        rw [isValid, kind] at valid
        contradiction
    | bounty => exact (owned kind).symm
    | contract => exact suited.2 kind
  unfold workProof
  rw [if_pos pairs]
  simp only [named, Job.isValid_ofScript suited, solvable, if_true]
  rw [UnlockingScript.solution_ofSolution signature key solution script.kind suited.1]

/-- Every regular work script with a valid target is redeemed so. -/
theorem isRedeemedFor_of_isRegular
    (suited : Job.IsFor script address)
    (owned : script.kind = .bounty → address = key.address)
    (regular : script.IsRegular)
    (solvable : script.target.isValid = true)
    (measurable : script.data.length < UInt32.size)
    (signatureFits : signature.bytes.length < UInt32.size)
    (keySize : key.bytes.length = PublicKey.compressedSize ∨
      key.bytes.length = PublicKey.fullSize) :
    script.IsRedeemedFor address signature key solution where
  paired := by
    rw [read_write_of_isRegular script suited.1 regular measurable,
      UnlockingScript.read_write_ofSolution signature key solution script.kind suited.1 keySize
        signatureFits,
      workProof_ofSolution suited owned solvable]
  decided := by
    have published : (Job.ofScript script address).puzzle.target = script.target := by
      rw [Job.ofScript_eq suited]
      rfl
    rw [← published]
    exact WorkProof.isValid_iff _
  sought _ _ _ answered := HashMeter.isValid_of_search_eq_some answered

/-- Scripts of both kinds, with whatever fields the constructors take, are
redeemed through their bytes: a bounty for the owner of the key, a contract for
the miner it names. -/
theorem isRedeemedFor_constructed
    (category : Int32)
    (content : Digest)
    (target : Target)
    (tag : Bytes)
    (userNonce : UInt32)
    (data : Bytes)
    (minerAddress : Address)
    (signature : Signature)
    (key : PublicKey)
    (solution : Solution)
    (solvable : target.isValid = true)
    (shortTag : tag.length ≤ 20)
    (measurable : data.length < UInt32.size)
    (signatureFits : signature.bytes.length < UInt32.size)
    (keySize : key.bytes.length = 33 ∨ key.bytes.length = 65) :
    (bounty category content target tag userNonce data).IsRedeemedFor
        key.address signature key solution ∧
      (contract category content target tag userNonce data minerAddress).IsRedeemedFor
        minerAddress signature key solution := by
  constructor
  · rw [bounty, tagged_of_le _ shortTag]
    exact isRedeemedFor_of_isRegular ⟨rfl, fun other => by contradiction⟩ (fun _ => rfl)
      ⟨shortTag, fun _ => rfl⟩ solvable measurable signatureFits keySize
  · rw [contract, tagged_of_le _ shortTag]
    exact isRedeemedFor_of_isRegular ⟨rfl, fun _ => rfl⟩ (fun other => by contradiction)
      ⟨shortTag, fun other => absurd rfl other⟩ solvable measurable signatureFits keySize

/-- With the easiest target the first nonce is found, so that redeeming this
contract with it gives a valid proof. -/
theorem isRedeemedFor_constructed_easiest :
    let script := contract (-1) Digest.absent Target.easiest [1] 2 [3] (FixedBytes.filled 20 9)
    let puzzle := (Job.ofScript script (FixedBytes.filled 20 9)).puzzle
    script.IsRedeemedFor (FixedBytes.filled 20 9) ⟨[4]⟩ ⟨List.replicate 33 2⟩ ⟨5, 0, 7, 8⟩ ∧
      (HashMeter.fresh.search puzzle ⟨5, 0, 7, 8⟩ 1).1 = some ⟨5, 0, 7, 8⟩ ∧
      (⟨puzzle, ⟨5, 0, 7, 8⟩⟩ : WorkProof).isValid = true := by
  intro script puzzle
  have redeemed : script.IsRedeemedFor (FixedBytes.filled 20 9) ⟨[4]⟩ ⟨List.replicate 33 2⟩
      ⟨5, 0, 7, 8⟩ :=
    (isRedeemedFor_constructed (-1) Digest.absent Target.easiest [1] 2 [3]
      (FixedBytes.filled 20 9) ⟨[4]⟩ ⟨List.replicate 33 2⟩ ⟨5, 0, 7, 8⟩ (by decide) (by decide)
      (by decide) (by decide) (by decide)).2
  have found : (HashMeter.fresh.search puzzle ⟨5, 0, 7, 8⟩ 1).1 = some ⟨5, 0, 7, 8⟩ := by
    decide +kernel
  exact ⟨redeemed, found, redeemed.sought _ _ _ found⟩

end LockingScript
end WorkMarket
