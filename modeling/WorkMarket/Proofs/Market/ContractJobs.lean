import WorkMarket.Proofs.Market.KeyedEntries
import WorkMarket.Proofs.Market.Listing

/-!
# The jobs of queued contracts

In a sound schedule every contract can be worked on, and the selected job is
that of the first.  A contract of a name may be queued behind another of the
same name; noting an output concerns the first of them, removing a name takes
both, and finishing a job takes only the front.
-/

namespace WorkMarket
namespace ContractQueue

section Lists

variable {output : Output} {jobs : List ContractJob}

/-- Noting an output changes no contract beyond its outputs. -/
theorem map_output_addToFirst
    (output : Output)
    (jobs : List ContractJob) :
    (addToFirst output jobs).map ContractJob.output = jobs.map ContractJob.output := by
  induction jobs with
  | nil => rfl
  | cons first rest inductionHypothesis =>
      unfold addToFirst
      split
      · rw [List.map_cons, List.map_cons, ContractJob.output_addOutpoint]
      · rw [List.map_cons, List.map_cons, inductionHypothesis]

/-- A job depends on the output alone, which noting leaves in place. -/
theorem map_job_addToFirst
    (output : Output)
    (jobs : List ContractJob) :
    (addToFirst output jobs).map ContractJob.job = jobs.map ContractJob.job := by
  have outputs := congrArg
    (List.map fun output : Output => Job.ofScript output.script output.script.minerAddress)
    (map_output_addToFirst output jobs)
  rw [List.map_map, List.map_map] at outputs
  exact outputs

/-- Every contract stays as it is but the one that notes the output. -/
theorem of_mem_addToFirst
    {contract : ContractJob}
    (present : contract ∈ addToFirst output jobs) :
    contract ∈ jobs ∨ ∃ earlier ∈ jobs, earlier.output.id = output.id ∧
      contract = earlier.addOutpoint output.outpoint := by
  induction jobs with
  | nil => contradiction
  | cons first rest inductionHypothesis =>
      unfold addToFirst at present
      split at present
      · rename_i same
        rcases List.mem_cons.mp present with rfl | inRest
        · exact Or.inr ⟨first, List.mem_cons_self, same, rfl⟩
        · exact Or.inl (List.mem_cons_of_mem _ inRest)
      · rcases List.mem_cons.mp present with rfl | inRest
        · exact Or.inl List.mem_cons_self
        · rcases inductionHypothesis inRest with kept | ⟨earlier, before, same, noted⟩
          · exact Or.inl (List.mem_cons_of_mem _ kept)
          · exact Or.inr ⟨earlier, List.mem_cons_of_mem _ before, same, noted⟩

/-- Noting an output concerns the first contract of its name. -/
theorem find?_addToFirst
    (output : Output)
    (jobs : List ContractJob)
    (id : Digest) :
    (addToFirst output jobs).find? (fun contract => contract.output.id = id) =
      (jobs.find? fun contract => contract.output.id = id).map fun contract =>
        if id = output.id then contract.addOutpoint output.outpoint else contract := by
  induction jobs with
  | nil => rfl
  | cons first rest inductionHypothesis =>
      by_cases here : first.output.id = output.id
      · rw [addToFirst, if_pos here]
        by_cases wanted : first.output.id = id
        · rw [List.find?_cons_of_pos (by simpa [ContractJob.output_addOutpoint] using wanted),
            List.find?_cons_of_pos (by simpa using wanted), Option.map_some,
            if_pos (wanted.symm.trans here)]
        · have other : id ≠ output.id := fun same => wanted (here.trans same.symm)
          rw [List.find?_cons_of_neg (by simpa [ContractJob.output_addOutpoint] using wanted),
            List.find?_cons_of_neg (by simpa using wanted)]
          simp [other]
      · rw [addToFirst, if_neg here]
        by_cases wanted : first.output.id = id
        · have other : id ≠ output.id := fun same => here (wanted.trans same)
          rw [List.find?_cons_of_pos (by simpa using wanted),
            List.find?_cons_of_pos (by simpa using wanted), Option.map_some, if_neg other]
        · rw [List.find?_cons_of_neg (by simpa using wanted),
            List.find?_cons_of_neg (by simpa using wanted), inductionHypothesis]

end Lists

variable {α : Type} [Scalar α] {queue : ContractQueue α}

/-- What is queued goes behind all others. -/
theorem push_cases
    (queue : ContractQueue α)
    (contract : ContractJob) :
    (queue.push contract).jobs = queue.jobs ∨
      contract.isWorkable = true ∧ (queue.push contract).jobs = queue.jobs ++ [contract] := by
  unfold push
  split
  · rename_i workable
    exact Or.inr ⟨workable, rfl⟩
  · exact Or.inl rfl

/-- Queueing a contract leaves the front. -/
theorem front?_push
    {front : ContractJob}
    (isFront : queue.front? = some front)
    (contract : ContractJob) :
    (queue.push contract).front? = some front := by
  obtain ⟨rest, jobs⟩ := List.head?_eq_some_iff.mp isFront
  unfold front?
  rcases queue.push_cases contract with ignored | ⟨_, queued⟩
  · rw [ignored, jobs]
    rfl
  · rw [queued, jobs]
    rfl

theorem jobs_remove
    (queue : ContractQueue α)
    (id : Digest) :
    (queue.remove id).2.jobs = queue.jobs.filter fun contract => contract.output.id ≠ id := by
  unfold remove
  rw [List.partition_eq_filter_filter]
  simp only [ne_eq, decide_not]
  rfl

theorem jobs_pop
    (queue : ContractQueue α) :
    queue.pop.2.jobs = queue.jobs.tail := by
  unfold pop
  split
  · rename_i empty
    rw [empty]
    rfl
  · rename_i jobs
    rw [jobs]
    rfl

end ContractQueue

namespace ContractSchedule

section Listings

variable {α : Type} {schedule : ContractSchedule α}

/-- What is listed under a name: the first contract of the name. -/
def listing?
    (schedule : ContractSchedule α)
    (id : Digest) :
    Option Listing :=
  (schedule.queue.get? id).map ContractJob.listing

/-- The job of the contract at the front. -/
def Offers
    (schedule : ContractSchedule α)
    (id : Digest)
    (job : Job) : Prop :=
  ∃ contract, schedule.queue.front? = some contract ∧ contract.output.id = id ∧
    job = contract.job

/-- An output of a queued contract. -/
def Holds
    (schedule : ContractSchedule α)
    (id : Digest)
    (outpoint : Outpoint) : Prop :=
  ∃ contract ∈ schedule.queue.jobs, contract.output.id = id ∧ outpoint ∈ contract.outpoints

/-- Every contract can be worked on, and the first one's job is selected. -/
structure IsSound (schedule : ContractSchedule α) : Prop where
  sound : ∀ contract ∈ schedule.queue.jobs, contract.listing.IsSound contract.output.id
  bound : ∀ contract ∈ schedule.queue.jobs, contract.output.script.kind = .contract
  selected : schedule.selected =
    (schedule.queue.front?.map ContractJob.job).getD Job.absent

theorem IsSound.selected_of_front?
    (sound : schedule.IsSound)
    {contract : ContractJob}
    (front : schedule.queue.front? = some contract) :
    schedule.selected = contract.job := by
  rw [sound.selected, front]
  rfl

/-- A selected job that can be worked on is that of the front. -/
theorem IsSound.front?_of_isValid
    (sound : schedule.IsSound)
    (valid : schedule.selected.isValid = true) :
    ∃ contract, schedule.queue.front? = some contract ∧ schedule.selected = contract.job := by
  cases front : schedule.queue.front? with
  | none =>
      rw [sound.selected, front] at valid
      contradiction
  | some contract => exact ⟨contract, rfl, sound.selected_of_front? front⟩

theorem mem_of_front?
    {contract : ContractJob}
    (front : schedule.queue.front? = some contract) :
    contract ∈ schedule.queue.jobs :=
  List.mem_of_head? front

/-- A selected job that can be worked on is offered under its name. -/
theorem IsSound.offers_selected
    (sound : schedule.IsSound)
    (valid : schedule.selected.isValid = true) :
    schedule.Offers schedule.selected.id schedule.selected := by
  obtain ⟨contract, front, isJob⟩ := sound.front?_of_isValid valid
  have listing := sound.sound contract (mem_of_front? front)
  have named : contract.job.id = contract.output.id := listing.id_job
  exact ⟨contract, front, by rw [isJob, named], isJob⟩

theorem IsSound.kind_of_offers
    (sound : schedule.IsSound)
    {id : Digest}
    {job : Job}
    (offered : schedule.Offers id job) :
    job.kind = .contract := by
  obtain ⟨contract, front, _, rfl⟩ := offered
  have present := mem_of_front? front
  rw [← contract.job_listing, (sound.sound contract present).kind_job]
  exact sound.bound contract present

/-- What is queued is what is listed. -/
theorem contains_eq
    (schedule : ContractSchedule α)
    (id : Digest) :
    schedule.queue.contains id = (schedule.listing? id).isSome := by
  rw [listing?, Option.isSome_map]
  rfl

/-- What is listed is queued under its name. -/
theorem exists_of_listing?
    {id : Digest}
    {listing : Listing}
    (listed : schedule.listing? id = some listing) :
    ∃ contract ∈ schedule.queue.jobs, contract.output.id = id ∧ listing = contract.listing := by
  obtain ⟨contract, found, rfl⟩ := Option.map_eq_some_iff.mp listed
  exact ⟨contract, List.mem_of_find?_eq_some found, by simpa using List.find?_some found, rfl⟩

/-- What is queued under a name is a contract of that name. -/
theorem exists_of_contains
    {id : Digest}
    (queued : schedule.queue.contains id = true) :
    ∃ contract ∈ schedule.queue.jobs, contract.output.id = id := by
  rw [contains_eq] at queued
  obtain ⟨_, listed⟩ := Option.isSome_iff_exists.mp queued
  obtain ⟨contract, present, named, _⟩ := exists_of_listing? listed
  exact ⟨contract, present, named⟩

/-- The front is listed under its name. -/
theorem listing?_of_front?
    {contract : ContractJob}
    (front : schedule.queue.front? = some contract) :
    schedule.listing? contract.output.id = some contract.listing := by
  unfold listing? ContractQueue.get?
  obtain ⟨rest, jobs⟩ := List.head?_eq_some_iff.mp front
  rw [jobs, List.find?_cons_of_pos (by simp)]
  rfl

theorem contains_of_offers
    {id : Digest}
    {job : Job}
    (offered : schedule.Offers id job) :
    schedule.queue.contains id = true := by
  obtain ⟨contract, front, rfl, _⟩ := offered
  rw [contains_eq, listing?_of_front? front]
  rfl

/-- Noting an output leaves the job at the front. -/
theorem front?_addOutput
    (schedule : ContractSchedule α)
    (output : Output) :
    (schedule.addOutput output).2.queue.front?.map ContractJob.job =
      schedule.queue.front?.map ContractJob.job := by
  change (ContractQueue.addToFirst output schedule.queue.jobs).head?.map ContractJob.job = _
  rw [← List.head?_map, ContractQueue.map_job_addToFirst, List.head?_map]
  rfl

theorem IsSound.addOutput
    (sound : schedule.IsSound)
    (output : Output) :
    (schedule.addOutput output).2.IsSound := by
  refine ⟨?_, ?_, ?_⟩
  · intro contract present
    rcases ContractQueue.of_mem_addToFirst present with kept | ⟨earlier, before, _, rfl⟩
    · exact sound.sound contract kept
    · rw [ContractJob.listing_addOutpoint, ContractJob.output_addOutpoint]
      exact (sound.sound earlier before).note output.outpoint
  · intro contract present
    rcases ContractQueue.of_mem_addToFirst present with kept | ⟨earlier, before, _, rfl⟩
    · exact sound.bound contract kept
    · rw [ContractJob.output_addOutpoint]
      exact sound.bound earlier before
  · rw [front?_addOutput]
    exact sound.selected

/-- Noting an output changes no job. -/
theorem Offers.addOutput
    {id : Digest}
    {job : Job}
    (offered : schedule.Offers id job)
    (output : Output) :
    (schedule.addOutput output).2.Offers id job := by
  obtain ⟨contract, front, rfl, rfl⟩ := offered
  obtain ⟨rest, jobs⟩ := List.head?_eq_some_iff.mp front
  have noted : (schedule.addOutput output).2.queue.jobs =
      ContractQueue.addToFirst output (contract :: rest) := by rw [← jobs]; rfl
  unfold Offers ContractQueue.front?
  rw [noted, ContractQueue.addToFirst]
  split
  · refine ⟨_, rfl, ?_, ?_⟩
    · rw [ContractJob.output_addOutpoint]
    · rw [ContractJob.job, ContractJob.job, ContractJob.output_addOutpoint]
  · exact ⟨contract, rfl, rfl, rfl⟩

/-- There is only one front. -/
theorem Offers.unique
    {id other : Digest}
    {job otherJob : Job}
    (offered : schedule.Offers id job)
    (otherOffered : schedule.Offers other otherJob) :
    id = other := by
  obtain ⟨contract, front, rfl, _⟩ := offered
  obtain ⟨otherContract, otherFront, rfl, _⟩ := otherOffered
  rw [front] at otherFront
  rw [Option.some.inj otherFront]

/-- Only the noted output is new. -/
theorem of_holds_addOutput
    {output : Output}
    {id : Digest}
    {outpoint : Outpoint}
    (held : (schedule.addOutput output).2.Holds id outpoint) :
    schedule.Holds id outpoint ∨ id = output.id ∧ outpoint = output.outpoint := by
  obtain ⟨contract, present, rfl, inContract⟩ := held
  rcases ContractQueue.of_mem_addToFirst present with kept | ⟨earlier, before, named, rfl⟩
  · exact Or.inl ⟨contract, kept, rfl, inContract⟩
  · change outpoint ∈ (earlier.addOutpoint output.outpoint).listing.outpoints at inContract
    rw [ContractJob.listing_addOutpoint, Listing.mem_outpoints_note] at inContract
    rw [ContractJob.output_addOutpoint]
    rcases inContract with inEarlier | isNoted
    · exact Or.inl ⟨earlier, before, rfl, inEarlier⟩
    · exact Or.inr ⟨named, isNoted⟩

/-- Whether no name is queued twice. -/
def IsDistinct
    (schedule : ContractSchedule α) : Prop :=
  (schedule.queue.jobs.map fun contract => contract.output.id).Nodup

/-- Where no name is queued twice, every contract is listed. -/
theorem IsDistinct.listing?_of_mem
    (distinct : schedule.IsDistinct)
    {contract : ContractJob}
    (present : contract ∈ schedule.queue.jobs) :
    schedule.listing? contract.output.id = some contract.listing := by
  obtain ⟨before, since, jobs⟩ := List.append_of_mem present
  unfold IsDistinct at distinct
  rw [jobs, List.map_append, List.nodup_append] at distinct
  unfold listing? ContractQueue.get?
  rw [jobs, List.find?_append, List.find?_eq_none.mpr, Option.none_or,
    List.find?_cons_of_pos (by simp)]
  · rfl
  · intro other inBefore
    have different := distinct.2.2 _ (List.mem_map_of_mem inBefore) _ List.mem_cons_self
    simpa using different

/-- Noting an output concerns the listing of its name. -/
theorem listing?_addOutput
    (schedule : ContractSchedule α)
    (output : Output)
    (id : Digest) :
    (schedule.addOutput output).2.listing? id =
      (schedule.listing? id).map fun listing =>
        if id = output.id then listing.note output.outpoint else listing := by
  change Option.map _ (List.find? _ (ContractQueue.addToFirst output schedule.queue.jobs)) = _
  rw [ContractQueue.find?_addToFirst]
  unfold listing? ContractQueue.get?
  rw [Option.map_map, Option.map_map]
  congr 1
  funext contract
  simp only [Function.comp_apply]
  split
  · rw [ContractJob.listing_addOutpoint]
  · rfl

theorem IsDistinct.addOutput
    (distinct : schedule.IsDistinct)
    (output : Output) :
    (schedule.addOutput output).2.IsDistinct := by
  have names := congrArg (List.map Output.id)
    (ContractQueue.map_output_addToFirst output schedule.queue.jobs)
  rw [List.map_map, List.map_map] at names
  exact (congrArg List.Nodup names).mpr distinct

end Listings

variable {α : Type} [Scalar α] {schedule : ContractSchedule α}

theorem isSound_empty :
    (empty : ContractSchedule α).IsSound where
  sound := by simp [empty, ContractQueue.empty]
  bound := by simp [empty, ContractQueue.empty]
  selected := rfl

theorem queue_insert
    (schedule : ContractSchedule α)
    (contract : ContractJob) :
    (schedule.insert contract).queue = schedule.queue.push contract := by
  unfold insert
  dsimp only
  split <;> rfl

theorem queue_finish
    (schedule : ContractSchedule α)
    (completed : Puzzle) :
    (schedule.finish completed).queue.jobs = schedule.queue.jobs ∨
      (schedule.finish completed).queue.jobs = schedule.queue.jobs.tail := by
  unfold finish
  split
  · exact Or.inr schedule.queue.jobs_pop
  · exact Or.inl rfl

/-- Solving the puzzle of the front takes the front away. -/
theorem IsSound.jobs_finish
    (sound : schedule.IsSound)
    {contract : ContractJob}
    (front : schedule.queue.front? = some contract) :
    (schedule.finish contract.job.puzzle).queue.jobs = schedule.queue.jobs.tail := by
  have listed := sound.sound contract (mem_of_front? front)
  have solved : schedule.selected.isValid = true ∧
      schedule.selected.puzzle.equivalent contract.job.puzzle = true := by
    rw [sound.selected_of_front? front]
    exact ⟨listed.isValid_job, Puzzle.equivalent_refl _⟩
  unfold ContractSchedule.finish
  rw [if_pos solved]
  exact schedule.queue.jobs_pop

section Soundness

/-- An offered contract that can be worked on is queued as a sound listing. -/
theorem isSound_listing_ofOutput
    {output : Output}
    {secret : Secret}
    (workable : (ContractJob.ofOutput output secret).isWorkable = true)
    (named : output.script.id = output.id)
    (regular : output.script.IsRegular) :
    (ContractJob.ofOutput output secret).listing.IsSound output.id ∧
      output.script.kind = .contract := by
  simp only [ContractJob.isWorkable, Bool.and_eq_true, decide_eq_true_eq] at workable
  obtain ⟨⟨valid, contract⟩, target⟩ := workable
  have bound : output.script.kind = .contract := contract
  have suited : Job.IsFor output.script output.script.minerAddress :=
    ⟨by rw [LockingScript.isValid, bound]; rfl, fun _ => rfl⟩
  exact ⟨named ▸ Listing.isSound_first suited regular target output.outpoint (some secret), bound⟩

theorem IsSound.insert
    (sound : schedule.IsSound)
    {output : Output}
    (named : output.script.id = output.id)
    (regular : output.script.IsRegular)
    (secret : Secret) :
    (schedule.insert (ContractJob.ofOutput output secret)).IsSound := by
  have cases {contract : ContractJob}
      (present : contract ∈ (schedule.queue.push (ContractJob.ofOutput output secret)).jobs) :
      contract.listing.IsSound contract.output.id ∧ contract.output.script.kind = .contract := by
    rcases schedule.queue.push_cases (ContractJob.ofOutput output secret) with
      ignored | ⟨workable, queued⟩
    · rw [ignored] at present
      exact ⟨sound.sound contract present, sound.bound contract present⟩
    · rw [queued, List.mem_append, List.mem_singleton] at present
      rcases present with before | rfl
      · exact ⟨sound.sound contract before, sound.bound contract before⟩
      · exact isSound_listing_ofOutput workable named regular
  refine ⟨?_, ?_, ?_⟩
  · rw [queue_insert]
    exact fun contract present => (cases present).1
  · rw [queue_insert]
    exact fun contract present => (cases present).2
  · unfold ContractSchedule.insert
    dsimp only
    split
    · rename_i valid
      obtain ⟨front, isFront, selected⟩ := sound.front?_of_isValid valid
      dsimp only
      rw [ContractQueue.front?_push isFront, selected]
      rfl
    · rfl

theorem IsSound.remove
    (sound : schedule.IsSound)
    (id : Digest) :
    (schedule.remove id).2.IsSound := by
  have kept {contract : ContractJob}
      (present : contract ∈ (schedule.queue.remove id).2.jobs) :
      contract ∈ schedule.queue.jobs := by
    rw [ContractQueue.jobs_remove] at present
    exact (List.mem_filter.mp present).1
  exact ⟨fun contract present => sound.sound contract (kept present),
    fun contract present => sound.bound contract (kept present), rfl⟩

theorem IsSound.finish
    (sound : schedule.IsSound)
    (completed : Puzzle) :
    (schedule.finish completed).IsSound := by
  unfold ContractSchedule.finish
  split
  · have kept {contract : ContractJob} (present : contract ∈ schedule.queue.pop.2.jobs) :
        contract ∈ schedule.queue.jobs := by
      rw [ContractQueue.jobs_pop] at present
      exact List.mem_of_mem_tail present
    exact ⟨fun contract present => sound.sound contract (kept present),
      fun contract present => sound.bound contract (kept present), rfl⟩
  · exact sound

end Soundness

section Contents

variable {id other : Digest} {outpoint : Outpoint}

/-- Queueing a contract leaves the job at the front. -/
theorem Offers.insert
    {job : Job}
    (offered : schedule.Offers id job)
    (contract : ContractJob) :
    (schedule.insert contract).Offers id job := by
  obtain ⟨front, isFront, named, isJob⟩ := offered
  refine ⟨front, ?_, named, isJob⟩
  rw [queue_insert]
  exact ContractQueue.front?_push isFront contract

/-- Only the queued output is new. -/
theorem of_holds_insert
    {output : Output}
    {secret : Secret}
    (held : (schedule.insert (ContractJob.ofOutput output secret)).Holds id outpoint) :
    schedule.Holds id outpoint ∨ id = output.id ∧ outpoint = output.outpoint := by
  obtain ⟨contract, present, rfl, inContract⟩ := held
  rw [queue_insert] at present
  rcases schedule.queue.push_cases (ContractJob.ofOutput output secret) with
    ignored | ⟨_, queued⟩
  · rw [ignored] at present
    exact Or.inl ⟨contract, present, rfl, inContract⟩
  · rw [queued, List.mem_append, List.mem_singleton] at present
    rcases present with before | rfl
    · exact Or.inl ⟨contract, before, rfl, inContract⟩
    · exact Or.inr ⟨rfl, List.mem_singleton.mp inContract⟩

/-- Taking another name away leaves the front. -/
theorem Offers.remove
    {job : Job}
    (offered : schedule.Offers other job)
    (different : other ≠ id) :
    (schedule.remove id).2.Offers other job := by
  obtain ⟨front, isFront, rfl, isJob⟩ := offered
  obtain ⟨rest, jobs⟩ := List.head?_eq_some_iff.mp isFront
  refine ⟨front, ?_, rfl, isJob⟩
  change List.head? (schedule.queue.remove id).2.jobs = some front
  rw [ContractQueue.jobs_remove, jobs, List.filter_cons_of_pos (by simpa using different)]
  rfl

/-- What is still held is held under another name. -/
theorem of_holds_remove
    (held : (schedule.remove id).2.Holds other outpoint) :
    other ≠ id ∧ schedule.Holds other outpoint := by
  obtain ⟨contract, present, rfl, inContract⟩ := held
  change contract ∈ (schedule.queue.remove id).2.jobs at present
  rw [ContractQueue.jobs_remove, List.mem_filter] at present
  exact ⟨by simpa using present.2, contract, present.1, rfl, inContract⟩

/-- Whatever is finished, nothing new is held. -/
theorem of_holds_finish
    {completed : Puzzle}
    (held : (schedule.finish completed).Holds id outpoint) :
    schedule.Holds id outpoint := by
  obtain ⟨contract, present, named, inContract⟩ := held
  refine ⟨contract, ?_, named, inContract⟩
  rcases schedule.queue_finish completed with same | tail
  · rw [← same]
    exact present
  · rw [tail] at present
    exact List.mem_of_mem_tail present

end Contents

section Lookup

/-- Queueing a contract concerns its name, if nothing is listed there. -/
theorem listing?_insert
    (schedule : ContractSchedule α)
    (contract : ContractJob) :
    (schedule.insert contract).listing? = schedule.listing? ∨
      ∀ id, (schedule.insert contract).listing? id =
        (schedule.listing? id).or
          (if contract.output.id = id then some contract.listing else none) := by
  unfold listing? ContractQueue.get?
  rw [queue_insert]
  rcases schedule.queue.push_cases contract with ignored | ⟨_, queued⟩
  · exact Or.inl (by rw [ignored])
  · right
    intro id
    rw [queued, List.find?_append, Option.map_or]
    congr 1
    by_cases named : contract.output.id = id <;> simp [named]

theorem IsDistinct.insert
    (distinct : schedule.IsDistinct)
    (contract : ContractJob)
    (unlisted : schedule.listing? contract.output.id = none) :
    (schedule.insert contract).IsDistinct := by
  unfold IsDistinct
  rw [queue_insert]
  rcases schedule.queue.push_cases contract with ignored | ⟨_, queued⟩
  · rw [ignored]
    exact distinct
  · rw [queued, List.map_append]
    refine List.nodup_append.mpr ⟨distinct, List.pairwise_singleton _ _, ?_⟩
    intro name present other isName same
    obtain ⟨earlier, before, rfl⟩ := List.mem_map.mp present
    rw [List.mem_singleton.mp isName] at same
    rw [listing?, Option.map_eq_none_iff, ContractQueue.get?, List.find?_eq_none] at unlisted
    exact unlisted earlier before (by simpa using same)

theorem listing?_remove
    (schedule : ContractSchedule α)
    (id other : Digest) :
    (schedule.remove id).2.listing? other =
      if id = other then none else schedule.listing? other := by
  change Option.map _ (List.find? _ (schedule.queue.remove id).2.jobs) = _
  rw [ContractQueue.jobs_remove,
    Keyed.find?_filter_key (fun contract : ContractJob => contract.output.id)]
  split <;> rfl

theorem IsDistinct.remove
    (distinct : schedule.IsDistinct)
    (id : Digest) :
    (schedule.remove id).2.IsDistinct := by
  change List.Nodup (List.map _ (schedule.queue.remove id).2.jobs)
  rw [ContractQueue.jobs_remove]
  exact distinct.sublist (List.filter_sublist.map _)

/-- Where no name is queued twice, finishing the front leaves none of its
name. -/
theorem IsSound.listing?_finish
    (sound : schedule.IsSound)
    (distinct : schedule.IsDistinct)
    {contract : ContractJob}
    (front : schedule.queue.front? = some contract)
    (other : Digest) :
    (schedule.finish contract.job.puzzle).listing? other =
      if contract.output.id = other then none else schedule.listing? other := by
  obtain ⟨rest, jobs⟩ := List.head?_eq_some_iff.mp front
  unfold listing? ContractQueue.get?
  rw [sound.jobs_finish front, jobs, List.tail_cons]
  unfold IsDistinct at distinct
  rw [jobs, List.map_cons, List.nodup_cons] at distinct
  split
  · rename_i named
    rw [Option.map_eq_none_iff, List.find?_eq_none]
    intro later present same
    refine distinct.1 (List.mem_map.mpr ⟨later, present, ?_⟩)
    rw [named]
    simpa using same
  · rename_i different
    rw [List.find?_cons_of_neg (by simpa using different)]

theorem IsDistinct.finish
    (distinct : schedule.IsDistinct)
    (completed : Puzzle) :
    (schedule.finish completed).IsDistinct := by
  unfold IsDistinct
  rcases schedule.queue_finish completed with same | tail
  · rw [same]
    exact distinct
  · rw [tail]
    exact distinct.sublist ((List.tail_sublist _).map _)

end Lookup

end ContractSchedule
end WorkMarket
