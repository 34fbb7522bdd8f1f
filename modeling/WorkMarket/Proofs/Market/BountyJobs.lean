import WorkMarket.Market.BountySchedule
import WorkMarket.Proofs.Market.Listing
import WorkMarket.Proofs.Market.RankLookup

/-!
# The jobs of ranked bounties

A schedule lists a bounty if it is ranked with its outputs and has an address
recorded.  In a sound schedule everything ranked is listed, no address is used
twice, and the selected job is that of a listed bounty.  Because addresses differ,
a puzzle belongs to one bounty only, so finishing a job takes exactly its bounty
away, although the bounty is looked up by the puzzle.
-/

namespace WorkMarket

/-- Outputs are listed as they are recorded. -/
theorem Listing.note_eq
    (listing : Listing)
    (outpoint : Outpoint) :
    listing.note outpoint =
      { listing with outpoints := Ranking.withOutpoint listing.outpoints outpoint } := by
  unfold note Ranking.withOutpoint
  split <;> rfl

namespace BountySchedule

section Listings

variable {α : Type} {schedule : BountySchedule α}

/-- What is listed under a name. -/
def listing?
    (schedule : BountySchedule α)
    (id : Digest) :
    Option Listing :=
  (schedule.ranking.get? id).bind fun entry =>
    (schedule.ranking.recorded.get? id).bind fun outpoints =>
      (schedule.addresses.get? id).map fun address =>
        ⟨entry.script, outpoints, address, none⟩

theorem listing?_eq_some_iff
    (schedule : BountySchedule α)
    (id : Digest)
    (listing : Listing) :
    schedule.listing? id = some listing ↔
      ∃ entry outpoints address, schedule.ranking.get? id = some entry ∧
        schedule.ranking.recorded.get? id = some outpoints ∧
        schedule.addresses.get? id = some address ∧
        listing = ⟨entry.script, outpoints, address, none⟩ := by
  simp only [listing?, Option.bind_eq_some_iff, Option.map_eq_some_iff]
  constructor
  · rintro ⟨entry, found, outpoints, paid, address, recorded, rfl⟩
    exact ⟨entry, outpoints, address, found, paid, recorded, rfl⟩
  · rintro ⟨entry, outpoints, address, found, paid, recorded, rfl⟩
    exact ⟨entry, found, outpoints, paid, address, recorded, rfl⟩

/-- The address of a listed bounty is the recorded one. -/
theorem redeemAddress?_of_listing?
    {id : Digest}
    {listing : Listing}
    (listed : schedule.listing? id = some listing) :
    schedule.redeemAddress? id = some listing.address := by
  obtain ⟨_, _, _, _, _, recorded, rfl⟩ := (schedule.listing?_eq_some_iff id listing).mp listed
  exact recorded

/-- The job of a listed bounty. -/
def Offers
    (schedule : BountySchedule α)
    (id : Digest)
    (job : Job) : Prop :=
  ∃ listing, schedule.listing? id = some listing ∧ job = listing.job

/-- An output of a listed bounty. -/
def Holds
    (schedule : BountySchedule α)
    (id : Digest)
    (outpoint : Outpoint) : Prop :=
  ∃ listing, schedule.listing? id = some listing ∧ outpoint ∈ listing.outpoints

/-- Everything ranked is listed, as a bounty that can be worked on, and no two
bounties share an address. -/
structure IsOrderly (schedule : BountySchedule α) : Prop where
  agrees : schedule.ranking.Agrees
  recorded : ∀ id, schedule.ranking.contains id = true →
    (schedule.addresses.get? id).isSome = true
  sound : ∀ id listing, schedule.listing? id = some listing → listing.IsSound id
  bounty : ∀ id listing, schedule.listing? id = some listing → listing.script.kind = .bounty
  separate : ∀ id other listing otherListing, schedule.listing? id = some listing →
    schedule.listing? other = some otherListing →
    listing.address = otherListing.address → id = other

/-- An orderly schedule whose selected job is that of a listed bounty. -/
structure IsSound (schedule : BountySchedule α) : Prop extends IsOrderly schedule where
  selected : schedule.selected = Job.absent ∨ ∃ id, schedule.Offers id schedule.selected

theorem IsOrderly.kind_of_offers
    (orderly : schedule.IsOrderly)
    {id : Digest}
    {job : Job}
    (offered : schedule.Offers id job) :
    job.kind = .bounty := by
  obtain ⟨listing, listed, rfl⟩ := offered
  rw [(orderly.sound id listing listed).kind_job, orderly.bounty id listing listed]

/-- Every entry of an orderly ranking is listed. -/
theorem IsOrderly.listing?_of_mem
    (orderly : schedule.IsOrderly)
    {entry : RankedBounty α}
    (present : entry ∈ schedule.ranking.entries) :
    ∃ outpoints address, schedule.listing? entry.id =
      some ⟨entry.script, outpoints, address, none⟩ := by
  have found : schedule.ranking.get? entry.id = some entry :=
    (Ranking.get?_eq_some_iff orderly.agrees.distinct entry.id entry).mpr ⟨present, rfl⟩
  have ranked := orderly.agrees.contains_of_mem present
  obtain ⟨outpoints, paid⟩ := Option.isSome_iff_exists.mp ranked
  obtain ⟨address, recorded⟩ := Option.isSome_iff_exists.mp (orderly.recorded entry.id ranked)
  exact ⟨outpoints, address, (schedule.listing?_eq_some_iff _ _).mpr
    ⟨entry, outpoints, address, found, paid, recorded, rfl⟩⟩

/-- What is ranked is what is listed. -/
theorem IsOrderly.contains_eq
    (orderly : schedule.IsOrderly)
    (id : Digest) :
    schedule.ranking.contains id = (schedule.listing? id).isSome := by
  rw [Bool.eq_iff_iff, Option.isSome_iff_exists]
  constructor
  · intro ranked
    obtain ⟨entry, present, rfl⟩ := (orderly.agrees.contains_iff id).mp ranked
    obtain ⟨_, _, listed⟩ := orderly.listing?_of_mem present
    exact ⟨_, listed⟩
  · rintro ⟨listing, listed⟩
    obtain ⟨_, _, _, _, paid, _⟩ := (schedule.listing?_eq_some_iff id listing).mp listed
    rw [Ranking.contains_eq_isSome, paid]
    rfl

theorem IsOrderly.ne_of_unranked
    (orderly : schedule.IsOrderly)
    {id other : Digest}
    {listing : Listing}
    (unranked : schedule.ranking.contains id = false)
    (listed : schedule.listing? other = some listing) :
    id ≠ other := by
  rintro rfl
  rw [orderly.contains_eq, listed] at unranked
  contradiction

/-- The outputs recorded for a name are the listed ones. -/
theorem IsOrderly.outpoints_eq
    (orderly : schedule.IsOrderly)
    (id : Digest) :
    schedule.ranking.outpoints id =
      ((schedule.listing? id).map Listing.outpoints).getD [] := by
  unfold Ranking.outpoints
  cases listed : schedule.listing? id with
  | some listing =>
      obtain ⟨_, _, _, _, paid, _, rfl⟩ := (schedule.listing?_eq_some_iff id listing).mp listed
      rw [paid]
      rfl
  | none =>
      have unranked := orderly.contains_eq id
      rw [listed, Ranking.contains_eq_isSome, Option.isSome_none, Option.isSome_eq_false_iff,
        Option.isNone_iff_eq_none] at unranked
      rw [unranked]
      rfl

/-- Addresses differ, so the puzzle of a listed bounty finds just its name. -/
theorem IsOrderly.find?_job
    (orderly : schedule.IsOrderly)
    {id : Digest}
    {listing : Listing}
    (listed : schedule.listing? id = some listing) :
    schedule.find? listing.job.puzzle = some id := by
  have sound := orderly.sound id listing listed
  obtain ⟨entry, _, address, ranked, _, recorded, equal⟩ :=
    (schedule.listing?_eq_some_iff id listing).mp listed
  obtain ⟨present, rfl⟩ := (Ranking.get?_eq_some_iff orderly.agrees.distinct id entry).mp ranked
  unfold find?
  cases found : schedule.ranking.entries.find? _ with
  | none =>
      have refused := List.find?_eq_none.mp found entry present
      simp only [recorded] at refused
      subst equal
      exact absurd (Puzzle.equivalent_refl _) refused
  | some other =>
      obtain ⟨_, otherAddress, otherListed⟩ :=
        orderly.listing?_of_mem (List.mem_of_find?_eq_some found)
      obtain ⟨_, _, _, _, _, otherRecorded, otherEqual⟩ :=
        (schedule.listing?_eq_some_iff _ _).mp otherListed
      obtain ⟨_, _, rfl, _⟩ := Listing.mk.inj otherEqual
      have equivalent := List.find?_some found
      simp only [otherRecorded] at equivalent
      have shared : otherAddress = listing.address :=
        Job.address_eq_of_equivalent (orderly.sound _ _ otherListed).suited sound.suited equivalent
      rw [Option.map_some, orderly.separate _ _ _ _ otherListed listed shared]

theorem ranking_addOutput
    (schedule : BountySchedule α)
    (output : Output) :
    (schedule.addOutput output).2.ranking = (schedule.ranking.addOutput output).2 :=
  rfl

theorem addresses_addOutput
    (schedule : BountySchedule α)
    (output : Output) :
    (schedule.addOutput output).2.addresses = schedule.addresses :=
  rfl

/-- Noting an output concerns the listing of its name. -/
theorem listing?_addOutput
    (schedule : BountySchedule α)
    (output : Output)
    (id : Digest) :
    (schedule.addOutput output).2.listing? id =
      (schedule.listing? id).map fun listing =>
        if id = output.id then listing.note output.outpoint else listing := by
  rw [listing?, ranking_addOutput, addresses_addOutput, Ranking.get?_addOutput,
    Ranking.recorded_get?_addOutput, listing?]
  cases schedule.ranking.get? id with
  | none => rfl
  | some entry =>
      cases schedule.ranking.recorded.get? id with
      | none => rfl
      | some outpoints =>
          cases schedule.addresses.get? id with
          | none => rfl
          | some address =>
              simp only [Option.map_some, Option.bind_some, Listing.note_eq]
              split <;> rfl

/-- Whatever is listed after noting was listed before, up to its outputs. -/
theorem exists_of_listing?_addOutput
    {output : Output}
    {id : Digest}
    {noted : Listing}
    (listed : (schedule.addOutput output).2.listing? id = some noted) :
    ∃ listing, schedule.listing? id = some listing ∧
      noted = if id = output.id then listing.note output.outpoint else listing := by
  rw [listing?_addOutput, Option.map_eq_some_iff] at listed
  obtain ⟨listing, before, rfl⟩ := listed
  exact ⟨listing, before, rfl⟩

/-- Noting an output changes no job. -/
theorem Offers.addOutput
    {id : Digest}
    {job : Job}
    (offered : schedule.Offers id job)
    (output : Output) :
    (schedule.addOutput output).2.Offers id job := by
  obtain ⟨listing, listed, rfl⟩ := offered
  refine ⟨if id = output.id then listing.note output.outpoint else listing, ?_, ?_⟩
  · rw [listing?_addOutput, listed]
    rfl
  · split
    · rw [Listing.job_note]
    · rfl

/-- Only the noted output is new. -/
theorem of_holds_addOutput
    {output : Output}
    {id : Digest}
    {outpoint : Outpoint}
    (held : (schedule.addOutput output).2.Holds id outpoint) :
    schedule.Holds id outpoint ∨ id = output.id ∧ outpoint = output.outpoint := by
  obtain ⟨noted, listed, present⟩ := held
  obtain ⟨listing, before, rfl⟩ := exists_of_listing?_addOutput listed
  split at present
  · rename_i named
    rcases (listing.mem_outpoints_note _ _).mp present with inListing | isNoted
    · exact Or.inl ⟨listing, before, inListing⟩
    · exact Or.inr ⟨named, isNoted⟩
  · exact Or.inl ⟨listing, before, present⟩

theorem IsSound.addOutput
    (sound : schedule.IsSound)
    (output : Output) :
    (schedule.addOutput output).2.IsSound := by
  have kept {id : Digest} {noted : Listing}
      (listed : (schedule.addOutput output).2.listing? id = some noted) :
      ∃ listing, schedule.listing? id = some listing ∧ noted.script = listing.script ∧
        noted.address = listing.address ∧ (listing.IsSound id → noted.IsSound id) := by
    obtain ⟨listing, before, rfl⟩ := exists_of_listing?_addOutput listed
    refine ⟨listing, before, ?_⟩
    split
    · exact ⟨listing.script_note _, listing.address_note _, fun sound => sound.note _⟩
    · exact ⟨rfl, rfl, fun sound => sound⟩
  have contains (id : Digest) :
      (schedule.addOutput output).2.ranking.contains id = schedule.ranking.contains id :=
    schedule.ranking.contains_addOutput output id
  refine ⟨⟨?_, ?_, ?_, ?_, ?_⟩, ?_⟩
  · exact sound.agrees.addOutput output
  · intro id ranked
    rw [contains] at ranked
    exact sound.recorded id ranked
  · intro id noted listed
    obtain ⟨listing, before, _, _, preserved⟩ := kept listed
    exact preserved (sound.sound id listing before)
  · intro id noted listed
    obtain ⟨listing, before, script, _, _⟩ := kept listed
    rw [script]
    exact sound.bounty id listing before
  · intro id other noted otherNoted listed otherListed shared
    obtain ⟨listing, before, _, address, _⟩ := kept listed
    obtain ⟨otherListing, otherBefore, _, otherAddress, _⟩ := kept otherListed
    rw [address, otherAddress] at shared
    exact sound.separate id other listing otherListing before otherBefore shared
  · exact sound.selected.imp_right fun ⟨id, offered⟩ => ⟨id, offered.addOutput output⟩

end Listings

variable {α : Type} [Scalar α] {schedule : BountySchedule α}

theorem isSound_empty
    (costs : CostModel α) :
    (empty costs).IsSound where
  agrees := Ranking.agrees_empty
  recorded := by simp [empty, Ranking.empty, Ranking.contains, Keyed.contains]
  sound := by simp [empty, Ranking.empty, Ranking.get?, listing?]
  bounty := by simp [empty, Ranking.empty, Ranking.get?, listing?]
  separate := by simp [empty, Ranking.empty, Ranking.get?, listing?]
  selected := Or.inl rfl

section Drawing

/-- A draw falls on the job of a listed bounty, if it falls on any. -/
theorem IsOrderly.offers_drawn
    (orderly : schedule.IsOrderly)
    (draw : α) :
    schedule.drawn draw = Job.absent ∨ ∃ id, schedule.Offers id (schedule.drawn draw) := by
  unfold drawn
  cases selected : schedule.ranking.select? schedule.costs draw with
  | none => exact Or.inl rfl
  | some script =>
      obtain ⟨entry, present, rfl⟩ := Ranking.exists_of_select? selected
      obtain ⟨_, address, listed⟩ := orderly.listing?_of_mem present
      have named : entry.script.id = entry.id := (orderly.sound _ _ listed).id_eq
      obtain ⟨_, _, _, _, _, recorded, equal⟩ := (schedule.listing?_eq_some_iff _ _).mp listed
      obtain ⟨_, _, rfl, _⟩ := Listing.mk.inj equal
      dsimp only
      rw [named, recorded]
      exact Or.inr ⟨entry.id, _, listed, rfl⟩

/-- Drawing again makes a sound schedule of an orderly one. -/
theorem IsOrderly.select
    (orderly : schedule.IsOrderly)
    (draw : α) :
    (schedule.select draw).IsSound where
  agrees := orderly.agrees
  recorded := orderly.recorded
  sound := orderly.sound
  bounty := orderly.bounty
  separate := orderly.separate
  selected := orderly.offers_drawn draw

end Drawing

section Insertion

variable {next : BountySchedule α} {entry : RankedBounty α} {outpoint : Outpoint}
  {address : Address}

/-- A bounty that enters the ranking is listed with its address. -/
theorem IsOrderly.listing?_of_entered
    (orderly : schedule.IsOrderly)
    (enters : schedule.ranking.Enters next.ranking entry outpoint)
    (recorded : next.addresses = schedule.addresses.put entry.id address)
    (id : Digest) :
    next.listing? id =
      if entry.id = id then some ⟨entry.script, [outpoint], address, none⟩
      else schedule.listing? id := by
  unfold listing?
  rw [enters.get?_eq orderly.agrees, enters.recorded_get?, recorded, Keyed.get?_put]
  split
  · rfl
  · rfl

/-- A bounty enters an orderly schedule with an address that is not in use. -/
theorem IsOrderly.of_entered
    (orderly : schedule.IsOrderly)
    (enters : schedule.ranking.Enters next.ranking entry outpoint)
    (recorded : next.addresses = schedule.addresses.put entry.id address)
    (bounty : entry.script.kind = .bounty)
    (sound : (Listing.mk entry.script [outpoint] address none).IsSound entry.id)
    (unused : ∀ id listing, schedule.listing? id = some listing → listing.address ≠ address) :
    next.IsOrderly := by
  have listings := orderly.listing?_of_entered enters recorded
  have cases {id : Digest} {listing : Listing} (listed : next.listing? id = some listing) :
      (id = entry.id ∧ listing = ⟨entry.script, [outpoint], address, none⟩) ∨
        schedule.listing? id = some listing := by
    rw [listings] at listed
    split at listed
    · rename_i same
      exact Or.inl ⟨same.symm, (Option.some.inj listed).symm⟩
    · exact Or.inr listed
  refine ⟨enters.agrees orderly.agrees, ?_, ?_, ?_, ?_⟩
  · intro id contained
    rw [enters.contains_eq] at contained
    rw [recorded, Keyed.get?_put]
    split
    · rfl
    · rename_i other
      exact orderly.recorded id (by simpa [other] using contained)
  · intro id listing listed
    rcases cases listed with ⟨rfl, rfl⟩ | before
    · exact sound
    · exact orderly.sound id listing before
  · intro id listing listed
    rcases cases listed with ⟨rfl, rfl⟩ | before
    · exact bounty
    · exact orderly.bounty id listing before
  · intro id other listing otherListing listed otherListed shared
    rcases cases listed with ⟨rfl, rfl⟩ | before
    · rcases cases otherListed with ⟨rfl, rfl⟩ | otherBefore
      · rfl
      · exact absurd shared.symm (unused other otherListing otherBefore)
    · rcases cases otherListed with ⟨rfl, rfl⟩ | otherBefore
      · exact absurd shared (unused id listing before)
      · exact orderly.separate id other listing otherListing before otherBefore shared

end Insertion

section Operations

/-- A schedule that ranks a bounty, without another draw. -/
def entered
    (schedule : BountySchedule α)
    (bounty : BountyJob) :
    BountySchedule α :=
  let id := bounty.output.id
  let ranking := schedule.ranking.push bounty.output
  { schedule with
    ranking := ranking
    addresses :=
      if !schedule.ranking.contains id && ranking.contains id then
        schedule.addresses.put id bounty.redeemAddress
      else schedule.addresses }

theorem insert_eq
    (schedule : BountySchedule α)
    (bounty : BountyJob)
    (draw : α) :
    schedule.insert bounty draw =
      if schedule.selected.isValid then schedule.entered bounty
      else (schedule.entered bounty).select draw :=
  rfl

/-- A schedule without a name. -/
def without
    (schedule : BountySchedule α)
    (id : Digest) :
    BountySchedule α :=
  { schedule with
    ranking := (schedule.ranking.remove id).2
    addresses := schedule.addresses.erase id }

/-- Another job is drawn if the one that leaves was selected. -/
theorem remove_eq
    (schedule : BountySchedule α)
    (id : Digest)
    (draw : α) :
    (schedule.remove id draw).2 =
      if schedule.selected.isValid ∧ schedule.selected.id = id then
        (schedule.without id).select draw
      else schedule.without id :=
  rfl

theorem finish_of_find?_eq_none
    {completed : Puzzle}
    (unknown : schedule.find? completed = none)
    (draw : α) :
    schedule.finish completed draw = schedule.select draw := by
  rw [finish, unknown]

theorem finish_of_find?_eq_some
    {completed : Puzzle}
    {id : Digest}
    (found : schedule.find? completed = some id)
    (draw : α) :
    schedule.finish completed draw = (schedule.remove id draw).2.select draw := by
  rw [finish, found]

/-- What a schedule does with a bounty that is not ranked: it ignores it, or
lists it with its address; a job is drawn if none is selected. -/
theorem IsSound.insert_cases
    (sound : schedule.IsSound)
    {output : Output}
    {address : Address}
    (unranked : schedule.ranking.contains output.id = false)
    (named : output.script.id = output.id)
    (regular : output.script.IsRegular)
    (unused : ∀ id listing, schedule.listing? id = some listing → listing.address ≠ address)
    (draw : α) :
    (schedule.insert ⟨output, address⟩ draw).IsSound ∧
      ((schedule.insert ⟨output, address⟩ draw).listing? = schedule.listing? ∨
        ∀ id, (schedule.insert ⟨output, address⟩ draw).listing? id =
          if output.id = id then some ⟨output.script, [output.outpoint], address, none⟩
          else schedule.listing? id) := by
  rcases schedule.ranking.push_of_unranked output unranked with
    ignored | ⟨difficulty, bounty, found, enters⟩
  · have same : schedule.insert ⟨output, address⟩ draw =
        if schedule.selected.isValid then schedule else schedule.select draw := by
      simp [insert, ignored, unranked]
    rw [same]
    split
    · exact ⟨sound, Or.inl rfl⟩
    · exact ⟨sound.select draw, Or.inl rfl⟩
  · let next : BountySchedule α :=
      { schedule with
        ranking := schedule.ranking.push output
        addresses := schedule.addresses.put output.id address }
    have entersNext : schedule.ranking.Enters next.ranking
        (RankedBounty.ofOutput output difficulty) output.outpoint :=
      enters
    have entered : (schedule.ranking.push output).contains output.id = true := by
      rw [enters.contains_eq]
      simp [RankedBounty.ofOutput]
    have same : schedule.insert ⟨output, address⟩ draw =
        if schedule.selected.isValid then next else next.select draw := by
      simp [insert, unranked, entered, next]
    have target : output.script.target.isValid = true :=
      ((Target.difficulty_eq_ok_iff _ _).mp found).1
    have suited : Job.IsFor output.script address := by
      simp [Job.IsFor, LockingScript.isValid, bounty, ScriptKind.isValid]
    have first : (Listing.mk output.script [output.outpoint] address none).IsSound output.id :=
      named ▸ Listing.isSound_first suited regular target output.outpoint none
    have orderly : next.IsOrderly :=
      sound.of_entered entersNext rfl bounty first unused
    have listings (id : Digest) : next.listing? id =
        if output.id = id then some ⟨output.script, [output.outpoint], address, none⟩
        else schedule.listing? id :=
      sound.listing?_of_entered entersNext rfl id
    rw [same]
    split
    · refine ⟨⟨orderly, ?_⟩, Or.inr listings⟩
      rcases sound.selected with none | ⟨id, listing, listed, job⟩
      · exact Or.inl none
      · refine Or.inr ⟨id, listing, ?_, job⟩
        rw [listings, if_neg (sound.ne_of_unranked unranked listed)]
        exact listed
    · exact ⟨orderly.select draw, Or.inr listings⟩

/-- Ranking a bounty changes no other job. -/
theorem IsSound.offers_insert
    (sound : schedule.IsSound)
    {output : Output}
    {address : Address}
    (unranked : schedule.ranking.contains output.id = false)
    (named : output.script.id = output.id)
    (regular : output.script.IsRegular)
    (unused : ∀ id listing, schedule.listing? id = some listing → listing.address ≠ address)
    (draw : α)
    {id : Digest}
    {job : Job}
    (offered : schedule.Offers id job) :
    (schedule.insert ⟨output, address⟩ draw).Offers id job := by
  obtain ⟨listing, listed, rfl⟩ := offered
  refine ⟨listing, ?_, rfl⟩
  rcases (sound.insert_cases unranked named regular unused draw).2 with same | listings
  · rw [same]
    exact listed
  · rw [listings, if_neg (sound.ne_of_unranked unranked listed)]
    exact listed

/-- Only the ranked output is new. -/
theorem IsSound.of_holds_insert
    (sound : schedule.IsSound)
    {output : Output}
    {address : Address}
    (unranked : schedule.ranking.contains output.id = false)
    (named : output.script.id = output.id)
    (regular : output.script.IsRegular)
    (unused : ∀ id listing, schedule.listing? id = some listing → listing.address ≠ address)
    (draw : α)
    {id : Digest}
    {outpoint : Outpoint}
    (held : (schedule.insert ⟨output, address⟩ draw).Holds id outpoint) :
    schedule.Holds id outpoint ∨ id = output.id ∧ outpoint = output.outpoint := by
  obtain ⟨listing, listed, present⟩ := held
  rcases (sound.insert_cases unranked named regular unused draw).2 with same | listings
  · rw [same] at listed
    exact Or.inl ⟨listing, listed, present⟩
  · rw [listings] at listed
    split at listed
    · rename_i isNamed
      obtain rfl := Option.some.inj listed
      exact Or.inr ⟨isNamed.symm, List.mem_singleton.mp present⟩
    · exact Or.inl ⟨listing, listed, present⟩

theorem IsOrderly.listing?_without
    (orderly : schedule.IsOrderly)
    (id other : Digest) :
    (schedule.without id).listing? other =
      if id = other then none else schedule.listing? other := by
  change ((schedule.ranking.remove id).2.get? other).bind (fun _ =>
    ((schedule.ranking.remove id).2.recorded.get? other).bind fun _ =>
      ((schedule.addresses.erase id).get? other).map _) = _
  rw [orderly.agrees.get?_remove, Ranking.recorded_get?_remove, Keyed.get?_erase]
  split
  · rfl
  · rfl

/-- What is still listed was listed under another name. -/
theorem IsOrderly.of_listing?_without
    (orderly : schedule.IsOrderly)
    {id other : Digest}
    {listing : Listing}
    (listed : (schedule.without id).listing? other = some listing) :
    other ≠ id ∧ schedule.listing? other = some listing := by
  rw [orderly.listing?_without] at listed
  split at listed
  · contradiction
  · rename_i different
    exact ⟨Ne.symm different, listed⟩

theorem IsOrderly.without
    (orderly : schedule.IsOrderly)
    (id : Digest) :
    (schedule.without id).IsOrderly where
  agrees := orderly.agrees.remove id
  recorded := by
    intro other ranked
    change (schedule.ranking.remove id).2.contains other = true at ranked
    change ((schedule.addresses.erase id).get? other).isSome = true
    rw [Ranking.contains_remove, Bool.and_eq_true, Bool.not_eq_true', decide_eq_false_iff_not]
      at ranked
    rw [Keyed.get?_erase, if_neg ranked.1]
    exact orderly.recorded other ranked.2
  sound := fun other listing listed =>
    orderly.sound other listing (orderly.of_listing?_without listed).2
  bounty := fun other listing listed =>
    orderly.bounty other listing (orderly.of_listing?_without listed).2
  separate := fun first second listing otherListing listed otherListed =>
    orderly.separate first second listing otherListing
      (orderly.of_listing?_without listed).2 (orderly.of_listing?_without otherListed).2

theorem listing?_remove
    (schedule : BountySchedule α)
    (id : Digest)
    (draw : α) :
    (schedule.remove id draw).2.listing? = (schedule.without id).listing? := by
  rw [remove_eq]
  split <;> rfl

/-- Another job is drawn if the one of the bounty that leaves was selected, so
the selected job stays that of a listed bounty. -/
theorem IsSound.remove
    (sound : schedule.IsSound)
    (id : Digest)
    (draw : α) :
    (schedule.remove id draw).2.IsSound := by
  rw [remove_eq]
  split
  · exact (sound.toIsOrderly.without id).select draw
  · rename_i kept
    refine ⟨sound.toIsOrderly.without id, ?_⟩
    rcases sound.selected with none | ⟨other, listing, listed, job⟩
    · exact Or.inl none
    · refine Or.inr ⟨other, listing, ?_, job⟩
      have different : id ≠ other := by
        rintro rfl
        have listingSound := sound.sound id listing listed
        exact kept (by rw [job]; exact ⟨listingSound.isValid_job, listingSound.id_job⟩)
      rw [sound.listing?_without, if_neg different]
      exact listed

/-- Taking a name away changes no other job. -/
theorem IsOrderly.offers_remove
    (orderly : schedule.IsOrderly)
    {id other : Digest}
    {job : Job}
    (offered : schedule.Offers other job)
    (different : other ≠ id)
    (draw : α) :
    (schedule.remove id draw).2.Offers other job := by
  obtain ⟨listing, listed, rfl⟩ := offered
  refine ⟨listing, ?_, rfl⟩
  rw [listing?_remove, orderly.listing?_without, if_neg (Ne.symm different)]
  exact listed

/-- What is still held is held under another name. -/
theorem IsOrderly.of_holds_remove
    (orderly : schedule.IsOrderly)
    {id other : Digest}
    {outpoint : Outpoint}
    {draw : α}
    (held : (schedule.remove id draw).2.Holds other outpoint) :
    other ≠ id ∧ schedule.Holds other outpoint := by
  obtain ⟨listing, listed, present⟩ := held
  rw [listing?_remove] at listed
  obtain ⟨different, before⟩ := orderly.of_listing?_without listed
  exact ⟨different, listing, before, present⟩

/-- Finishing a job takes exactly its bounty away. -/
theorem IsOrderly.listing?_finish
    (orderly : schedule.IsOrderly)
    {id : Digest}
    {listing : Listing}
    (listed : schedule.listing? id = some listing)
    (draw : α)
    (other : Digest) :
    (schedule.finish listing.job.puzzle draw).listing? other =
      if id = other then none else schedule.listing? other := by
  rw [finish_of_find?_eq_some (orderly.find?_job listed)]
  change (schedule.remove id draw).2.listing? other = _
  rw [listing?_remove, orderly.listing?_without]

theorem IsSound.finish
    (sound : schedule.IsSound)
    (completed : Puzzle)
    (draw : α) :
    (schedule.finish completed draw).IsSound := by
  cases found : schedule.find? completed with
  | none =>
      rw [finish_of_find?_eq_none found]
      exact sound.select draw
  | some id =>
      rw [finish_of_find?_eq_some found]
      exact (sound.remove id draw).select draw

/-- Whatever is finished, nothing new is listed. -/
theorem IsOrderly.of_listing?_finish
    (orderly : schedule.IsOrderly)
    {completed : Puzzle}
    {draw : α}
    {id : Digest}
    {listing : Listing}
    (listed : (schedule.finish completed draw).listing? id = some listing) :
    schedule.listing? id = some listing := by
  cases found : schedule.find? completed with
  | none =>
      rw [finish_of_find?_eq_none found] at listed
      exact listed
  | some finished =>
      rw [finish_of_find?_eq_some found] at listed
      change (schedule.remove finished draw).2.listing? id = some listing at listed
      rw [listing?_remove] at listed
      exact (orderly.of_listing?_without listed).2

/-- Finishing a job changes no other job. -/
theorem IsOrderly.offers_finish
    (orderly : schedule.IsOrderly)
    {id other : Digest}
    {finished job : Job}
    (completed : schedule.Offers id finished)
    (offered : schedule.Offers other job)
    (different : other ≠ id)
    (draw : α) :
    (schedule.finish finished.puzzle draw).Offers other job := by
  obtain ⟨finishedListing, finishedListed, rfl⟩ := completed
  obtain ⟨listing, listed, rfl⟩ := offered
  refine ⟨listing, ?_, rfl⟩
  rw [orderly.listing?_finish finishedListed, if_neg (Ne.symm different)]
  exact listed

end Operations

end BountySchedule
end WorkMarket
