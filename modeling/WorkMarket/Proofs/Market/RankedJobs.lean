import WorkMarket.Proofs.Market.BountyJobs

/-!
# Ranked bounties under any addresses

A schedule may be handed an address twice, and then a puzzle no longer tells
which bounty it belongs to.  What does not depend on addresses stays true all
the same: the list and the map of a ranking agree, everything ranked is a bounty
that can be worked on, addresses are kept for ranked names only, and the selected
job is that of a ranked bounty.
-/

namespace WorkMarket

/-- What a ranked bounty lists for a miner, with the outputs recorded for it. -/
def RankedBounty.listing
    {α : Type}
    (entry : RankedBounty α)
    (outpoints : List Outpoint)
    (address : Address) :
    Listing :=
  ⟨entry.script, outpoints, address, none⟩

theorem RankedBounty.listing_withOutpoint
    {α : Type}
    (entry : RankedBounty α)
    (outpoints : List Outpoint)
    (outpoint : Outpoint)
    (address : Address) :
    entry.listing (Ranking.withOutpoint outpoints outpoint) address =
      (entry.listing outpoints address).note outpoint :=
  ((entry.listing outpoints address).note_eq outpoint).symm

namespace Ranking

section Invariant

variable {α : Type} {ranking next : Ranking α}

/-- An output recorded for a ranked bounty. -/
def Holds
    (ranking : Ranking α)
    (id : Digest)
    (outpoint : Outpoint) : Prop :=
  outpoint ∈ ranking.outpoints id

/-- The list and the map agree, and every entry is, with its outputs, a bounty that
can be worked on, whoever the miner is. -/
structure IsTidy (ranking : Ranking α) : Prop where
  agrees : ranking.Agrees
  sound : ∀ entry ∈ ranking.entries, ∀ address,
    (entry.listing (ranking.outpoints entry.id) address).IsSound entry.id
  bounty : ∀ entry ∈ ranking.entries, entry.script.kind = .bounty

/-- What is ranked holds an output. -/
theorem IsTidy.exists_holds
    (tidy : ranking.IsTidy)
    {id : Digest}
    (ranked : ranking.contains id = true) :
    ∃ outpoint, ranking.Holds id outpoint := by
  obtain ⟨entry, present, rfl⟩ := (tidy.agrees.contains_iff id).mp ranked
  exact List.exists_mem_of_ne_nil _ (tidy.sound entry present Address.absent).outpoints_ne_nil

theorem IsTidy.addOutput
    (tidy : ranking.IsTidy)
    (output : Output) :
    (ranking.addOutput output).2.IsTidy where
  agrees := tidy.agrees.addOutput output
  sound := by
    intro entry present address
    rw [entries_addOutput] at present
    have sound := tidy.sound entry present address
    rw [outpoints_addOutput]
    split
    · rw [RankedBounty.listing_withOutpoint]
      exact sound.note output.outpoint
    · exact sound
  bounty := by
    rw [entries_addOutput]
    exact tidy.bounty

/-- Only the noted output is new. -/
theorem of_holds_addOutput
    {output : Output}
    {id : Digest}
    {outpoint : Outpoint}
    (held : (ranking.addOutput output).2.Holds id outpoint) :
    ranking.Holds id outpoint ∨ id = output.id ∧ outpoint = output.outpoint := by
  rw [Holds, outpoints_addOutput] at held
  split at held
  · rename_i named
    exact (mem_withOutpoint.mp held).imp_right fun isNoted => ⟨named.2, isNoted⟩
  · exact Or.inl held

end Invariant

variable {α : Type} [Scalar α] {ranking : Ranking α}

theorem isTidy_empty :
    (empty : Ranking α).IsTidy where
  agrees := agrees_empty
  sound := by simp [empty]
  bounty := by simp [empty]

section Push

variable {output : Output}

/-- No entry is lost or changed when an output is ranked. -/
theorem mem_push
    {entry : RankedBounty α}
    (present : entry ∈ ranking.entries)
    (output : Output) :
    entry ∈ (ranking.push output).entries := by
  apply push_keeps (motive := fun next => entry ∈ next.entries) output present
  · rwa [entries_addOutput]
  · intro _ _ _ enters
    exact (enters.mem_entries_iff entry).mpr (Or.inr present)

theorem contains_push
    {id : Digest}
    (known : ranking.contains id = true)
    (output : Output) :
    (ranking.push output).contains id = true := by
  apply push_keeps (motive := fun next => next.contains id = true) output known
  · rwa [contains_addOutput]
  · intro _ _ _ enters
    rw [enters.contains_eq, known, Bool.or_true]

/-- Only the name of the output can be new. -/
theorem eq_or_contains_of_contains_push
    {id : Digest}
    (ranked : (ranking.push output).contains id = true) :
    id = output.id ∨ ranking.contains id = true := by
  revert ranked
  apply push_keeps (motive := fun next => next.contains id = true → _) output Or.inr
  · rw [contains_addOutput]
    exact Or.inr
  · intro _ _ _ enters ranked
    rw [enters.contains_eq, Bool.or_eq_true, decide_eq_true_eq] at ranked
    exact ranked.imp_left Eq.symm

theorem IsTidy.push
    (tidy : ranking.IsTidy)
    (named : output.script.id = output.id)
    (regular : output.script.IsRegular) :
    (ranking.push output).IsTidy := by
  refine push_keeps output tidy (tidy.addOutput output) fun difficulty bounty found enters => ?_
  refine ⟨enters.agrees tidy.agrees, ?_, ?_⟩
  · intro entry present address
    rw [enters.outpoints_eq]
    rcases (enters.mem_entries_iff entry).mp present with rfl | before
    · have target : output.script.target.isValid = true :=
        ((Target.difficulty_eq_ok_iff _ _).mp found).1
      have suited : Job.IsFor output.script address := by
        simp [Job.IsFor, LockingScript.isValid, bounty, ScriptKind.isValid]
      have first : (Listing.mk output.script [output.outpoint] address none).IsSound
          output.id :=
        named ▸ Listing.isSound_first suited regular target output.outpoint none
      rw [if_pos rfl]
      exact first
    · rw [if_neg (enters.ne_of_mem tidy.agrees before)]
      exact tidy.sound entry before address
  · intro entry present
    rcases (enters.mem_entries_iff entry).mp present with rfl | before
    · exact bounty
    · exact tidy.bounty entry before

/-- Only the ranked output is new. -/
theorem of_holds_push
    (unranked : ranking.contains output.id = false)
    {id : Digest}
    {outpoint : Outpoint}
    (held : (ranking.push output).Holds id outpoint) :
    ranking.Holds id outpoint ∨ id = output.id ∧ outpoint = output.outpoint := by
  rcases ranking.push_of_unranked output unranked with ignored | ⟨_, _, _, enters⟩
  · rw [ignored] at held
    exact Or.inl held
  · rw [Holds, enters.outpoints_eq] at held
    split at held
    · rename_i same
      exact Or.inr ⟨same.symm, List.mem_singleton.mp held⟩
    · exact Or.inl held

end Push

section Remove

variable {id : Digest}

theorem mem_remove
    (tidy : ranking.IsTidy)
    (id : Digest)
    (entry : RankedBounty α) :
    entry ∈ (ranking.remove id).2.entries ↔ entry ∈ ranking.entries ∧ entry.id ≠ id := by
  rw [tidy.agrees.entries_remove, List.mem_filter]
  simp

theorem IsTidy.remove
    (tidy : ranking.IsTidy)
    (id : Digest) :
    (ranking.remove id).2.IsTidy where
  agrees := tidy.agrees.remove id
  sound := by
    intro entry present address
    obtain ⟨before, different⟩ := (mem_remove tidy id entry).mp present
    rw [outpoints_remove, if_neg (Ne.symm different)]
    exact tidy.sound entry before address
  bounty := fun entry present => tidy.bounty entry ((mem_remove tidy id entry).mp present).1

/-- What is still held is held under another name. -/
theorem of_holds_remove
    {other : Digest}
    {outpoint : Outpoint}
    (held : (ranking.remove id).2.Holds other outpoint) :
    other ≠ id ∧ ranking.Holds other outpoint := by
  rw [Holds, outpoints_remove] at held
  split at held
  · contradiction
  · rename_i different
    exact ⟨Ne.symm different, held⟩

end Remove

end Ranking

namespace BountySchedule

section Invariant

variable {α : Type} {schedule : BountySchedule α}

/-- What a schedule sees to whatever addresses it is handed. -/
structure IsTidy (schedule : BountySchedule α) : Prop where
  ranking : schedule.ranking.IsTidy
  addressed : ∀ id, (schedule.addresses.get? id).isSome = true →
    schedule.ranking.contains id = true
  selected : schedule.selected = Job.absent ∨
    ∃ entry ∈ schedule.ranking.entries, ∃ address,
      schedule.selected = Job.ofScript entry.script address

/-- A selected job that can be worked on is named as a ranked bounty. -/
theorem IsTidy.contains_selected
    (tidy : schedule.IsTidy)
    (valid : schedule.selected.isValid = true) :
    schedule.ranking.contains schedule.selected.id = true := by
  rcases tidy.selected with absent | ⟨entry, present, address, isJob⟩
  · rw [absent] at valid
    contradiction
  · have named := (tidy.ranking.sound entry present address).id_job
    change (Job.ofScript entry.script address).id = entry.id at named
    rw [isJob, named]
    exact tidy.ranking.agrees.contains_of_mem present

/-- No contract is selected. -/
theorem IsTidy.kind_selected_ne
    (tidy : schedule.IsTidy) :
    schedule.selected.kind ≠ .contract := by
  rcases tidy.selected with absent | ⟨entry, present, address, isJob⟩
  · rw [absent]
    simp [Job.absent]
  · have kind := (tidy.ranking.sound entry present address).kind_job
    change (Job.ofScript entry.script address).kind = entry.script.kind at kind
    rw [isJob, kind, tidy.ranking.bounty entry present]
    simp

theorem IsTidy.addOutput
    (tidy : schedule.IsTidy)
    (output : Output) :
    (schedule.addOutput output).2.IsTidy where
  ranking := tidy.ranking.addOutput output
  addressed := by
    intro id recorded
    exact (schedule.ranking.contains_addOutput output id).trans (tidy.addressed id recorded)
  selected := by
    rw [ranking_addOutput, Ranking.entries_addOutput]
    exact tidy.selected

end Invariant

variable {α : Type} [Scalar α] {schedule : BountySchedule α}

theorem isTidy_empty
    (costs : CostModel α) :
    (empty costs).IsTidy where
  ranking := Ranking.isTidy_empty
  addressed := by simp [empty]
  selected := Or.inl rfl

theorem ranking_insert
    (schedule : BountySchedule α)
    (bounty : BountyJob)
    (draw : α) :
    (schedule.insert bounty draw).ranking = schedule.ranking.push bounty.output := by
  rw [insert_eq]
  split <;> rfl

theorem ranking_remove
    (schedule : BountySchedule α)
    (id : Digest)
    (draw : α) :
    (schedule.remove id draw).2.ranking = (schedule.ranking.remove id).2 := by
  rw [remove_eq]
  split <;> rfl

/-- Whatever is finished, no more than one name leaves the ranking. -/
theorem ranking_finish
    (schedule : BountySchedule α)
    (completed : Puzzle)
    (draw : α) :
    (schedule.finish completed draw).ranking = schedule.ranking ∨
      ∃ id, (schedule.finish completed draw).ranking = (schedule.ranking.remove id).2 := by
  cases found : schedule.find? completed with
  | none =>
      rw [finish_of_find?_eq_none found]
      exact Or.inl rfl
  | some id =>
      rw [finish_of_find?_eq_some found]
      exact Or.inr ⟨id, schedule.ranking_remove id draw⟩

/-- A name that enters the ranking gets the address of the bounty, and the others
keep theirs. -/
theorem redeemAddress?_entered
    (schedule : BountySchedule α)
    (bounty : BountyJob)
    (id : Digest) :
    (schedule.entered bounty).redeemAddress? id =
      if schedule.ranking.contains id = false ∧
          (schedule.ranking.push bounty.output).contains id = true then
        some bounty.redeemAddress
      else schedule.redeemAddress? id := by
  unfold entered redeemAddress?
  dsimp only
  by_cases same : id = bounty.output.id
  · subst same
    cases schedule.ranking.contains bounty.output.id <;>
      cases (schedule.ranking.push bounty.output).contains bounty.output.id <;>
        simp [Keyed.get?_put]
  · have unentered : ¬(schedule.ranking.contains id = false ∧
        (schedule.ranking.push bounty.output).contains id = true) := by
      rintro ⟨unranked, ranked⟩
      rcases Ranking.eq_or_contains_of_contains_push ranked with named | before
      · exact same named
      · rw [before] at unranked
        contradiction
    rw [if_neg unentered]
    split
    · rw [Keyed.get?_put, if_neg (Ne.symm same)]
    · rfl

/-- Drawing again selects the job of a ranked bounty, if any. -/
theorem isTidy_select
    (ranking : schedule.ranking.IsTidy)
    (addressed : ∀ id, (schedule.addresses.get? id).isSome = true →
      schedule.ranking.contains id = true)
    (draw : α) :
    (schedule.select draw).IsTidy where
  ranking := ranking
  addressed := addressed
  selected := by
    change schedule.drawn draw = Job.absent ∨
      ∃ entry ∈ schedule.ranking.entries, ∃ address,
        schedule.drawn draw = Job.ofScript entry.script address
    unfold drawn
    cases selected : schedule.ranking.select? schedule.costs draw with
    | none => exact Or.inl rfl
    | some script =>
        obtain ⟨entry, present, rfl⟩ := Ranking.exists_of_select? selected
        dsimp only
        cases schedule.addresses.get? entry.script.id with
        | none => exact Or.inl rfl
        | some address => exact Or.inr ⟨entry, present, address, rfl⟩

/-- A bounty enters with any address. -/
theorem IsTidy.insert
    (tidy : schedule.IsTidy)
    {output : Output}
    (named : output.script.id = output.id)
    (regular : output.script.IsRegular)
    (address : Address)
    (draw : α) :
    (schedule.insert ⟨output, address⟩ draw).IsTidy := by
  have ranking : (schedule.entered ⟨output, address⟩).ranking.IsTidy :=
    tidy.ranking.push named regular
  have addressed (id : Digest)
      (recorded : ((schedule.entered ⟨output, address⟩).redeemAddress? id).isSome = true) :
      (schedule.ranking.push output).contains id = true := by
    rw [redeemAddress?_entered] at recorded
    split at recorded
    · rename_i enters
      exact enters.2
    · exact Ranking.contains_push (tidy.addressed id recorded) output
  rw [insert_eq]
  split
  · refine ⟨ranking, addressed, tidy.selected.imp_right ?_⟩
    rintro ⟨entry, present, address, isJob⟩
    exact ⟨entry, Ranking.mem_push present output, address, isJob⟩
  · exact isTidy_select ranking addressed draw

/-- Another job is drawn if the one of the bounty that leaves was selected. -/
theorem IsTidy.remove
    (tidy : schedule.IsTidy)
    (id : Digest)
    (draw : α) :
    (schedule.remove id draw).2.IsTidy := by
  have ranking := tidy.ranking.remove id
  have addressed : ∀ other, ((schedule.addresses.erase id).get? other).isSome = true →
      (schedule.ranking.remove id).2.contains other = true := by
    intro other recorded
    rw [Keyed.get?_erase] at recorded
    split at recorded
    · contradiction
    · rename_i different
      rw [Ranking.contains_remove, tidy.addressed other recorded]
      simpa using different
  rw [remove_eq]
  split
  · exact isTidy_select ranking addressed draw
  · rename_i kept
    refine ⟨ranking, addressed, tidy.selected.imp_right ?_⟩
    rintro ⟨entry, present, address, isJob⟩
    have sound := tidy.ranking.sound entry present address
    have different : entry.id ≠ id := by
      rintro rfl
      exact kept (by rw [isJob]; exact ⟨sound.isValid_job, sound.id_job⟩)
    exact ⟨entry, (Ranking.mem_remove tidy.ranking id entry).mpr ⟨present, different⟩, address,
      isJob⟩

theorem IsTidy.finish
    (tidy : schedule.IsTidy)
    (completed : Puzzle)
    (draw : α) :
    (schedule.finish completed draw).IsTidy := by
  cases found : schedule.find? completed with
  | none =>
      rw [finish_of_find?_eq_none found]
      exact isTidy_select tidy.ranking tidy.addressed draw
  | some id =>
      rw [finish_of_find?_eq_some found]
      have removed := tidy.remove id draw
      exact isTidy_select removed.ranking removed.addressed draw

/-- Taking a name away that is not ranked changes nothing. -/
theorem IsTidy.remove_of_unranked
    (tidy : schedule.IsTidy)
    {id : Digest}
    (unranked : schedule.ranking.contains id = false)
    (draw : α) :
    (schedule.remove id draw).2 = schedule := by
  have absent : schedule.ranking.recorded.get? id = none := by
    simpa [Ranking.contains_eq_isSome] using unranked
  have unaddressed : schedule.addresses.get? id = none := by
    cases recorded : schedule.addresses.get? id with
    | none => rfl
    | some address =>
        rw [tidy.addressed id (by rw [recorded]; rfl)] at unranked
        contradiction
  have unselected : ¬(schedule.selected.isValid ∧ schedule.selected.id = id) := by
    rintro ⟨valid, rfl⟩
    rw [tidy.contains_selected valid] at unranked
    contradiction
  unfold BountySchedule.remove Ranking.remove
  dsimp only
  rw [if_neg unselected, absent, Keyed.erase_of_get?_eq_none unaddressed]

end BountySchedule
end WorkMarket
