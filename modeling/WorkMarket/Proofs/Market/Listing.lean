import WorkMarket.Market.ContractQueue
import WorkMarket.Proofs.Work.Recovery

/-!
# Listings

Contracts and bounties are queued in different ways, but what is listed under
a name is alike: a script, the outputs that pay it, the miner for whom it is
worked on and, for a contract, the key.  A sound listing gives a job that can
be worked on and that carries the listing's name.
-/

namespace WorkMarket

/-- What is listed under a name. -/
structure Listing where
  script : LockingScript
  outpoints : List Outpoint
  /-- The miner for whom the script is worked on. -/
  address : Address
  /-- The key of a contract. -/
  secret : Option Secret

namespace Listing

/-- The job that workers are given. -/
def job
    (listing : Listing) :
    Job :=
  Job.ofScript listing.script listing.address

/-- Note another output, unless it is known. -/
def note
    (listing : Listing)
    (outpoint : Outpoint) :
    Listing :=
  if listing.outpoints.contains outpoint then listing
  else { listing with outpoints := listing.outpoints ++ [outpoint] }

/-- What every queue sees to for what it lists under a name. -/
structure IsSound
    (listing : Listing)
    (id : Digest) : Prop where
  suited : Job.IsFor listing.script listing.address
  regular : listing.script.IsRegular
  id_eq : listing.script.id = id
  target_isValid : listing.script.target.isValid = true
  outpoints_ne_nil : listing.outpoints ≠ []
  outpoints_nodup : listing.outpoints.Nodup

@[simp] theorem script_note
    (listing : Listing)
    (outpoint : Outpoint) :
    (listing.note outpoint).script = listing.script := by
  unfold note
  split <;> rfl

@[simp] theorem address_note
    (listing : Listing)
    (outpoint : Outpoint) :
    (listing.note outpoint).address = listing.address := by
  unfold note
  split <;> rfl

@[simp] theorem secret_note
    (listing : Listing)
    (outpoint : Outpoint) :
    (listing.note outpoint).secret = listing.secret := by
  unfold note
  split <;> rfl

@[simp] theorem job_note
    (listing : Listing)
    (outpoint : Outpoint) :
    (listing.note outpoint).job = listing.job := by
  simp [job]

/-- A noted output is listed beside those that were. -/
theorem mem_outpoints_note
    (listing : Listing)
    (noted outpoint : Outpoint) :
    outpoint ∈ (listing.note noted).outpoints ↔
      outpoint ∈ listing.outpoints ∨ outpoint = noted := by
  unfold note
  split
  · rename_i known
    have present : noted ∈ listing.outpoints := by simpa using known
    constructor
    · exact Or.inl
    · rintro (listed | rfl)
      · exact listed
      · exact present
  · simp

/-- An output that is not listed yet comes last. -/
theorem outpoints_note
    (listing : Listing)
    (noted : Outpoint)
    (unlisted : noted ∉ listing.outpoints) :
    (listing.note noted).outpoints = listing.outpoints ++ [noted] := by
  unfold note
  rw [if_neg (by simpa using unlisted)]

/-- A sound listing stays sound when another output is noted. -/
theorem IsSound.note
    {listing : Listing}
    {id : Digest}
    (sound : listing.IsSound id)
    (noted : Outpoint) :
    (listing.note noted).IsSound id where
  suited := by simpa using sound.suited
  regular := by simpa using sound.regular
  id_eq := by simpa using sound.id_eq
  target_isValid := by simpa using sound.target_isValid
  outpoints_ne_nil := by
    intro empty
    have listed := (listing.mem_outpoints_note noted noted).mpr (Or.inr rfl)
    rw [empty] at listed
    contradiction
  outpoints_nodup := by
    by_cases known : noted ∈ listing.outpoints
    · unfold Listing.note
      rw [if_pos (by simpa using known)]
      exact sound.outpoints_nodup
    · rw [listing.outpoints_note noted known]
      refine List.nodup_append.mpr ⟨sound.outpoints_nodup, List.pairwise_singleton _ noted, ?_⟩
      intro listed present other isNoted
      rw [List.mem_singleton.mp isNoted]
      exact fun same => known (same ▸ present)

/-- A first output makes a listing. -/
theorem isSound_first
    {script : LockingScript}
    {address : Address}
    (suited : Job.IsFor script address)
    (regular : script.IsRegular)
    (target : script.target.isValid = true)
    (outpoint : Outpoint)
    (secret : Option Secret) :
    (Listing.mk script [outpoint] address secret).IsSound script.id where
  suited := suited
  regular := regular
  id_eq := rfl
  target_isValid := target
  outpoints_ne_nil := List.cons_ne_nil _ _
  outpoints_nodup := List.pairwise_singleton _ outpoint

namespace IsSound

variable {listing : Listing} {id : Digest}

/-- The job is named as the listing is. -/
theorem id_job
    (sound : listing.IsSound id) :
    listing.job.id = id := by
  rw [job, Job.id_ofScript sound.suited sound.regular, sound.id_eq]

theorem kind_job
    (sound : listing.IsSound id) :
    listing.job.kind = listing.script.kind :=
  Job.kind_ofScript sound.suited

/-- The job can be worked on. -/
theorem isValid_job
    (sound : listing.IsSound id) :
    listing.job.isValid = true := by
  rw [job, Job.isValid_ofScript sound.suited, sound.target_isValid]

theorem minerAddress_job
    (sound : listing.IsSound id) :
    listing.job.minerAddress = listing.address :=
  Job.minerAddress_ofScript sound.suited

end IsSound
end Listing

/-- What a contract lists under its name. -/
def ContractJob.listing
    (contract : ContractJob) :
    Listing :=
  ⟨contract.output.script, contract.outpoints, contract.output.script.minerAddress,
    some contract.secret⟩

theorem ContractJob.job_listing
    (contract : ContractJob) :
    contract.listing.job = contract.job :=
  rfl

theorem ContractJob.output_addOutpoint
    (contract : ContractJob)
    (outpoint : Outpoint) :
    (contract.addOutpoint outpoint).output = contract.output := by
  unfold addOutpoint
  split <;> rfl

theorem ContractJob.listing_addOutpoint
    (contract : ContractJob)
    (outpoint : Outpoint) :
    (contract.addOutpoint outpoint).listing = contract.listing.note outpoint := by
  unfold addOutpoint Listing.note listing
  split <;> rfl

end WorkMarket
