import WorkMarket.Proofs.Market.RankedJobs

/-!
# Ranked names have addresses

Whatever outputs a schedule is handed, the list and the map of its ranking agree,
and it keeps an address for just the names that it ranks.  This takes nothing for
granted about the outputs: neither that their scripts were built, nor that they
are named as their scripts.

Every operation is made of four parts: a bounty enters, an output is noted, a
name leaves, a job is drawn.  What each part keeps, every operation keeps.
-/

namespace WorkMarket
namespace BountySchedule

section Parts

variable {α : Type} [Scalar α]

/-- Whether a property of schedules is kept by each part of an operation, where
only bounties of some sort enter. -/
structure IsInvariant
    (admits : BountyJob → Prop)
    (holds : BountySchedule α → Prop) : Prop where
  entered : ∀ schedule bounty, admits bounty → holds schedule → holds (schedule.entered bounty)
  noted : ∀ schedule output, holds schedule → holds (schedule.addOutput output).2
  without : ∀ schedule id, holds schedule → holds (schedule.without id)
  drawn : ∀ schedule draw, holds schedule → holds (schedule.select draw)

namespace IsInvariant

variable {admits : BountyJob → Prop} {holds : BountySchedule α → Prop}
  {schedule : BountySchedule α}

theorem insert
    (invariant : IsInvariant admits holds)
    (before : holds schedule)
    {bounty : BountyJob}
    (admitted : admits bounty)
    (draw : α) :
    holds (schedule.insert bounty draw) := by
  have entered := invariant.entered schedule bounty admitted before
  rw [insert_eq]
  split
  · exact entered
  · exact invariant.drawn _ draw entered

theorem remove
    (invariant : IsInvariant admits holds)
    (before : holds schedule)
    (id : Digest)
    (draw : α) :
    holds (schedule.remove id draw).2 := by
  have without := invariant.without schedule id before
  rw [remove_eq]
  split
  · exact invariant.drawn _ draw without
  · exact without

theorem finish
    (invariant : IsInvariant admits holds)
    (before : holds schedule)
    (completed : Puzzle)
    (draw : α) :
    holds (schedule.finish completed draw) := by
  cases found : schedule.find? completed with
  | none =>
      rw [finish_of_find?_eq_none found]
      exact invariant.drawn _ draw before
  | some id =>
      rw [finish_of_find?_eq_some found]
      exact invariant.drawn _ draw (invariant.remove before id draw)

end IsInvariant

end Parts

section Invariant

variable {α : Type} {schedule : BountySchedule α}

/-- Whether the list and the map of the ranking agree, and addresses are recorded
for just the ranked names. -/
structure IsAddressed (schedule : BountySchedule α) : Prop where
  agrees : schedule.ranking.Agrees
  addressed : ∀ id, (schedule.redeemAddress? id).isSome = schedule.ranking.contains id

/-- Every ranked bounty has an address. -/
theorem IsAddressed.exists_address
    (kept : schedule.IsAddressed)
    {entry : RankedBounty α}
    (present : entry ∈ schedule.ranking.entries) :
    ∃ address, schedule.redeemAddress? entry.id = some address :=
  Option.isSome_iff_exists.mp
    ((kept.addressed entry.id).trans (kept.agrees.contains_of_mem present))

theorem IsAddressed.addOutput
    (kept : schedule.IsAddressed)
    (output : Output) :
    (schedule.addOutput output).2.IsAddressed where
  agrees := kept.agrees.addOutput output
  addressed := fun id =>
    (kept.addressed id).trans (schedule.ranking.contains_addOutput output id).symm

end Invariant

variable {α : Type} [Scalar α] {schedule : BountySchedule α}

theorem isAddressed_empty
    (costs : CostModel α) :
    (empty costs).IsAddressed where
  agrees := Ranking.agrees_empty
  addressed := fun _ => rfl

/-- A name gets its address when it enters the ranking. -/
theorem IsAddressed.entered
    (kept : schedule.IsAddressed)
    (bounty : BountyJob) :
    (schedule.entered bounty).IsAddressed where
  agrees := kept.agrees.push bounty.output
  addressed := by
    intro id
    change _ = (schedule.ranking.push bounty.output).contains id
    rw [redeemAddress?_entered]
    split
    · rename_i enters
      rw [enters.2]
      rfl
    · rename_i stays
      rw [kept.addressed]
      cases known : schedule.ranking.contains id with
      | true => exact (Ranking.contains_push known _).symm
      | false => exact (Bool.eq_false_iff.mpr fun ranked => stays ⟨known, ranked⟩).symm

/-- A name loses its address when it leaves the ranking. -/
theorem IsAddressed.without
    (kept : schedule.IsAddressed)
    (id : Digest) :
    (schedule.without id).IsAddressed where
  agrees := kept.agrees.remove id
  addressed := by
    intro other
    change ((schedule.addresses.erase id).get? other).isSome =
      (schedule.ranking.remove id).2.contains other
    rw [Keyed.get?_erase, Ranking.contains_remove, ← kept.addressed]
    split
    · rename_i same
      simp [same]
    · rename_i different
      simp [different, redeemAddress?]

/-- Whatever bounties come and go, addresses are recorded for just the ranked
names. -/
theorem isInvariant_isAddressed :
    IsInvariant (fun _ => True) (IsAddressed : BountySchedule α → Prop) where
  entered := fun _ bounty _ kept => kept.entered bounty
  noted := fun _ output kept => kept.addOutput output
  without := fun _ id kept => kept.without id
  drawn := fun _ _ kept => ⟨kept.agrees, kept.addressed⟩

/-- A bounty that enters the ranking brings its address. -/
theorem redeemAddress?_insert
    (schedule : BountySchedule α)
    (bounty : BountyJob)
    (draw : α)
    (id : Digest) :
    (schedule.insert bounty draw).redeemAddress? id =
      if schedule.ranking.contains id = false ∧
          (schedule.insert bounty draw).ranking.contains id = true then
        some bounty.redeemAddress
      else schedule.redeemAddress? id := by
  rw [ranking_insert, ← redeemAddress?_entered, insert_eq]
  split <;> rfl

/-- A name that leaves the ranking loses its address. -/
theorem redeemAddress?_remove
    (schedule : BountySchedule α)
    (id : Digest)
    (draw : α)
    (other : Digest) :
    (schedule.remove id draw).2.redeemAddress? other =
      if id = other then none else schedule.redeemAddress? other := by
  have erased : (schedule.remove id draw).2.addresses = schedule.addresses.erase id := by
    rw [remove_eq]
    split <;> rfl
  rw [redeemAddress?, erased, Keyed.get?_erase]
  rfl

end BountySchedule
end WorkMarket
