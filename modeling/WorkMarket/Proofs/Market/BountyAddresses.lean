import Mathlib.Data.List.Infix
import WorkMarket.Proofs.Market.AddressedBounties

/-!
# The addresses of ranked bounties

An address is recorded when a bounty enters the ranking and forgotten when it
leaves.  In between it stays, whatever addresses further outputs of the same
script bring.  So the address of a ranked bounty is the one it entered with, and
the selected job is that of a ranked bounty for its own address.  A finished job
is looked up by its puzzle; where no two bounties share an address, the puzzle
finds the one bounty it belongs to.
-/

namespace WorkMarket
namespace BountySchedule

/-- What can be done to a schedule of bounties. -/
inductive Operation (α : Type) where
  | insert (bounty : BountyJob) (draw : α)
  | addOutput (output : Output)
  | remove (id : Digest) (draw : α)
  | select (draw : α)
  | withCosts (costs : CostModel α)
  | finish (completed : Puzzle) (draw : α)

namespace Operation

/-- Whether an operation inserts nothing but outputs of scripts that were
built. -/
def IsBuilt
    {α : Type} :
    Operation α → Prop
  | .insert bounty _ => ∃ outpoint script value,
      script.IsBuilt ∧ bounty.output = Output.ofScript outpoint script value
  | .addOutput _ | .remove _ _ | .select _ | .withCosts _ | .finish _ _ => True

end Operation

section Runs

variable {α : Type} [Scalar α]

/-- The schedule after one more operation. -/
def step
    (schedule : BountySchedule α) :
    Operation α → BountySchedule α
  | .insert bounty draw => schedule.insert bounty draw
  | .addOutput output => (schedule.addOutput output).2
  | .remove id draw => (schedule.remove id draw).2
  | .select draw => schedule.select draw
  | .withCosts costs => schedule.withCosts costs
  | .finish completed draw => schedule.finish completed draw

/-- The schedule after a history. -/
def run
    (schedule : BountySchedule α)
    (history : List (Operation α)) :
    BountySchedule α :=
  history.foldl step schedule

theorem run_concat
    (schedule : BountySchedule α)
    (history : List (Operation α))
    (operation : Operation α) :
    schedule.run (history ++ [operation]) = (schedule.run history).step operation := by
  simp [run]

end Runs

section Invariant

variable {α : Type} {schedule : BountySchedule α}

/-- Whether addresses are recorded for just the ranked bounties, and the selected
job is that of a ranked bounty for its recorded address. -/
structure Records (schedule : BountySchedule α) : Prop where
  ranking : schedule.ranking.IsTidy
  addressed : ∀ id, (schedule.redeemAddress? id).isSome = schedule.ranking.contains id
  selected : schedule.selected = Job.absent ∨
    ∃ entry ∈ schedule.ranking.entries, ∃ address,
      schedule.redeemAddress? entry.id = some address ∧
        schedule.selected = Job.ofScript entry.script address

theorem Records.isAddressed
    (records : schedule.Records) :
    schedule.IsAddressed :=
  ⟨records.ranking.agrees, records.addressed⟩

/-- What a puzzle finds is a ranked bounty with an equivalent job. -/
theorem Records.find?_eq_none_iff
    (records : schedule.Records)
    (completed : Puzzle) :
    schedule.find? completed = none ↔
      ∀ entry ∈ schedule.ranking.entries, ∀ address,
        schedule.redeemAddress? entry.id = some address →
          (Job.ofScript entry.script address).puzzle.equivalent completed = false := by
  unfold find?
  rw [Option.map_eq_none_iff, List.find?_eq_none]
  refine forall₂_congr fun entry present => ?_
  obtain ⟨address, recorded⟩ := records.isAddressed.exists_address present
  change schedule.addresses.get? entry.id = some address at recorded
  simp [redeemAddress?, recorded]

/-- Where no two bounties share an address, the puzzle of a bounty finds it. -/
theorem Records.find?_eq_some
    (records : schedule.Records)
    (separate : ∀ id other address, schedule.redeemAddress? id = some address →
      schedule.redeemAddress? other = some address → id = other)
    {entry : RankedBounty α}
    (present : entry ∈ schedule.ranking.entries)
    {address : Address}
    (recorded : schedule.redeemAddress? entry.id = some address)
    {completed : Puzzle}
    (solved : (Job.ofScript entry.script address).puzzle.equivalent completed = true) :
    schedule.find? completed = some entry.id := by
  cases result : schedule.find? completed with
  | none =>
      have refused := (records.find?_eq_none_iff completed).mp result entry present address recorded
      rw [solved] at refused
      contradiction
  | some id =>
      obtain ⟨other, found, rfl⟩ := Option.map_eq_some_iff.mp result
      have otherPresent := List.mem_of_find?_eq_some found
      obtain ⟨otherAddress, otherRecorded⟩ := records.isAddressed.exists_address otherPresent
      have otherSolved := List.find?_some found
      change schedule.addresses.get? other.id = some otherAddress at otherRecorded
      simp only [otherRecorded] at otherSolved
      -- Both jobs have the header of the puzzle, so they are for the same miner.
      have sameAddress : address = otherAddress :=
        Job.address_eq_of_header_eq (records.ranking.sound entry present address).suited
          (records.ranking.sound other otherPresent otherAddress).suited
          ((Puzzle.header_eq_of_equivalent solved).trans
            (Puzzle.header_eq_of_equivalent otherSolved).symm)
      rw [separate other.id entry.id address (sameAddress ▸ otherRecorded) recorded]

theorem Records.addOutput
    (records : schedule.Records)
    (output : Output) :
    (schedule.addOutput output).2.Records where
  ranking := records.ranking.addOutput output
  addressed := (records.isAddressed.addOutput output).addressed
  selected := by
    rw [ranking_addOutput, Ranking.entries_addOutput]
    exact records.selected

end Invariant

variable {α : Type} [Scalar α] {schedule : BountySchedule α}

theorem records_empty
    (costs : CostModel α) :
    (empty costs).Records where
  ranking := Ranking.isTidy_empty
  addressed := fun _ => rfl
  selected := Or.inl rfl

/-- A draw falls on the job of a ranked bounty for its recorded address. -/
theorem records_select
    (ranking : schedule.ranking.IsTidy)
    (addressed : ∀ id, (schedule.redeemAddress? id).isSome = schedule.ranking.contains id)
    (draw : α) :
    (schedule.select draw).Records where
  ranking := ranking
  addressed := addressed
  selected := by
    change schedule.drawn draw = Job.absent ∨
      ∃ entry ∈ schedule.ranking.entries, ∃ address,
        schedule.redeemAddress? entry.id = some address ∧
          schedule.drawn draw = Job.ofScript entry.script address
    unfold drawn
    cases selected : schedule.ranking.select? schedule.costs draw with
    | none => exact Or.inl rfl
    | some script =>
        obtain ⟨entry, present, rfl⟩ := Ranking.exists_of_select? selected
        have named : entry.script.id = entry.id :=
          (ranking.sound entry present Address.absent).id_eq
        dsimp only
        rw [named]
        cases recorded : schedule.addresses.get? entry.id with
        | none => exact Or.inl rfl
        | some address => exact Or.inr ⟨entry, present, address, recorded, rfl⟩

theorem Records.insert
    (records : schedule.Records)
    {bounty : BountyJob}
    (named : bounty.output.script.id = bounty.output.id)
    (regular : bounty.output.script.IsRegular)
    (draw : α) :
    (schedule.insert bounty draw).Records := by
  have ranking : (schedule.entered bounty).ranking.IsTidy := records.ranking.push named regular
  have addressed := (records.isAddressed.entered bounty).addressed
  rw [insert_eq]
  split
  · refine ⟨ranking, addressed, records.selected.imp_right ?_⟩
    rintro ⟨entry, present, address, recorded, isJob⟩
    have known := records.ranking.agrees.contains_of_mem present
    refine ⟨entry, Ranking.mem_push present bounty.output, address, ?_, isJob⟩
    rw [redeemAddress?_entered, if_neg (by simp [known])]
    exact recorded
  · exact records_select ranking addressed draw

section Removal

/-- What is ranked after a removal was ranked before, under another name. -/
theorem contains_of_contains_remove
    {id : Digest}
    {draw : α}
    {other : Digest}
    (ranked : (schedule.remove id draw).2.ranking.contains other = true) :
    id ≠ other ∧ schedule.ranking.contains other = true := by
  rw [ranking_remove, Ranking.contains_remove, Bool.and_eq_true, Bool.not_eq_true',
    decide_eq_false_iff_not] at ranked
  exact ranked

theorem Records.remove
    (records : schedule.Records)
    (id : Digest)
    (draw : α) :
    (schedule.remove id draw).2.Records := by
  have ranking : (schedule.without id).ranking.IsTidy := records.ranking.remove id
  have addressed := (records.isAddressed.without id).addressed
  rw [remove_eq]
  split
  · exact records_select ranking addressed draw
  · rename_i kept
    refine ⟨ranking, addressed, records.selected.imp_right ?_⟩
    rintro ⟨entry, present, address, recorded, isJob⟩
    -- What stays selected is not the job of the bounty that leaves.
    have sound := records.ranking.sound entry present address
    have different : entry.id ≠ id := by
      rintro rfl
      exact kept (by rw [isJob]; exact ⟨sound.isValid_job, sound.id_job⟩)
    refine ⟨entry, (Ranking.mem_remove records.ranking id entry).mpr ⟨present, different⟩,
      address, ?_, isJob⟩
    change (schedule.addresses.erase id).get? entry.id = some address
    rw [Keyed.get?_erase, if_neg (Ne.symm different)]
    exact recorded

end Removal

theorem Records.finish
    (records : schedule.Records)
    (completed : Puzzle)
    (draw : α) :
    (schedule.finish completed draw).Records := by
  cases found : schedule.find? completed with
  | none =>
      rw [finish_of_find?_eq_none found]
      exact records_select records.ranking records.addressed draw
  | some id =>
      have removed := records.remove id draw
      rw [finish_of_find?_eq_some found]
      exact records_select removed.ranking removed.addressed draw

section Steps

variable {operation : Operation α} {id : Digest}

theorem Records.step
    (records : schedule.Records)
    (built : operation.IsBuilt) :
    (schedule.step operation).Records := by
  cases operation with
  | insert bounty draw =>
      obtain ⟨outpoint, script, value, isBuilt, isOutput⟩ := built
      apply records.insert
      · rw [isOutput]
        rfl
      · rw [isOutput]
        exact isBuilt.isRegular
  | addOutput output => exact records.addOutput output
  | remove id draw => exact records.remove id draw
  | select draw => exact records_select records.ranking records.addressed draw
  | withCosts costs => exact ⟨records.ranking, records.addressed, records.selected⟩
  | finish completed draw => exact records.finish completed draw

/-- The address of a bounty that stays ranked does not change. -/
theorem redeemAddress?_step_of_kept
    (before : schedule.ranking.contains id = true)
    (after : (schedule.step operation).ranking.contains id = true) :
    (schedule.step operation).redeemAddress? id = schedule.redeemAddress? id := by
  have removed {other : Digest} {draw : α}
      (ranked : (schedule.remove other draw).2.ranking.contains id = true) :
      (schedule.remove other draw).2.redeemAddress? id = schedule.redeemAddress? id := by
    rw [redeemAddress?_remove, if_neg (contains_of_contains_remove ranked).1]
  cases operation with
  | insert bounty draw =>
      refine (redeemAddress?_insert schedule bounty draw id).trans (if_neg ?_)
      simp [before]
  | addOutput output => rfl
  | remove other draw => exact removed after
  | select draw => rfl
  | withCosts costs => rfl
  | finish completed draw =>
      rw [BountySchedule.step] at after ⊢
      cases found : schedule.find? completed with
      | none =>
          rw [finish_of_find?_eq_none found]
          rfl
      | some other =>
          rw [finish_of_find?_eq_some found] at after ⊢
          exact removed after

/-- A bounty enters the ranking by being inserted, with the address that comes
with it. -/
theorem exists_insert_of_entered
    (before : schedule.ranking.contains id = false)
    (after : (schedule.step operation).ranking.contains id = true) :
    ∃ output address draw, operation = .insert ⟨output, address⟩ draw ∧ output.id = id ∧
      (schedule.step operation).redeemAddress? id = some address := by
  have unchanged (known : schedule.ranking.contains id = true) : False := by
    rw [before] at known
    contradiction
  cases operation with
  | insert bounty draw =>
      obtain ⟨output, address⟩ := bounty
      refine ⟨output, address, draw, rfl, ?_, ?_⟩
      · change (schedule.insert ⟨output, address⟩ draw).ranking.contains id = true at after
        rw [ranking_insert] at after
        exact (Ranking.eq_or_contains_of_contains_push after).resolve_right unchanged |>.symm
      · exact (redeemAddress?_insert schedule _ draw id).trans (if_pos ⟨before, after⟩)
  | addOutput output =>
      exact (unchanged ((schedule.ranking.contains_addOutput output id).symm.trans after)).elim
  | remove other draw => exact (unchanged (contains_of_contains_remove after).2).elim
  | select draw => exact (unchanged after).elim
  | withCosts costs => exact (unchanged after).elim
  | finish completed draw =>
      rw [BountySchedule.step] at after
      cases found : schedule.find? completed with
      | none =>
          rw [finish_of_find?_eq_none found] at after
          exact (unchanged after).elim
      | some other =>
          rw [finish_of_find?_eq_some found] at after
          exact (unchanged (contains_of_contains_remove after).2).elim

end Steps

section Histories

variable {costs : CostModel α} {history : List (Operation α)} {id : Digest} {address : Address}

/-- Whether a name has been ranked since a bounty with some address was inserted
that ranked it. -/
def IsQueuedWith
    (costs : CostModel α)
    (history : List (Operation α))
    (id : Digest)
    (address : Address) : Prop :=
  ∃ before output draw after, history = before ++ .insert ⟨output, address⟩ draw :: after ∧
    output.id = id ∧ ((empty costs).run before).ranking.contains id = false ∧
    ∀ since, since <+: after →
      ((empty costs).run (before ++ .insert ⟨output, address⟩ draw :: since)).ranking.contains id =
        true

theorem run_records
    (costs : CostModel α)
    (built : ∀ operation ∈ history, operation.IsBuilt) :
    ((empty costs).run history).Records := by
  induction history using List.reverseRecOn with
  | nil => exact records_empty costs
  | append_singleton history operation inductionHypothesis =>
      rw [run_concat]
      exact (inductionHypothesis fun earlier present =>
        built earlier (List.mem_append_left _ present)).step (built operation (by simp))

/-- The address of a ranked bounty is the one it was queued with. -/
theorem isQueuedWith_of_redeemAddress?
    (built : ∀ operation ∈ history, operation.IsBuilt)
    (recorded : ((empty costs).run history).redeemAddress? id = some address) :
    IsQueuedWith costs history id address := by
  induction history using List.reverseRecOn with
  | nil => contradiction
  | append_singleton history operation inductionHypothesis =>
      have builtBefore : ∀ operation ∈ history, operation.IsBuilt := fun earlier present =>
        built earlier (List.mem_append_left _ present)
      have records := run_records costs builtBefore
      have ranked : ((empty costs).run (history ++ [operation])).ranking.contains id = true := by
        rw [← (run_records costs built).addressed, recorded]
        rfl
      have after := ranked
      rw [run_concat] at recorded after
      cases known : ((empty costs).run history).ranking.contains id with
      | true =>
          rw [redeemAddress?_step_of_kept known after] at recorded
          obtain ⟨before, output, draw, later, rfl, named, unranked, stays⟩ :=
            inductionHypothesis builtBefore recorded
          refine ⟨before, output, draw, later ++ [operation], by simp, named, unranked, ?_⟩
          intro since isPrefix
          rcases List.prefix_concat_iff.mp isPrefix with rfl | earlier
          · rw [← List.cons_append, ← List.append_assoc]
            exact ranked
          · exact stays since earlier
      | false =>
          obtain ⟨output, given, draw, rfl, named, isGiven⟩ :=
            exists_insert_of_entered known after
          obtain rfl : given = address := Option.some.inj (isGiven.symm.trans recorded)
          refine ⟨history, output, draw, [], rfl, named, known, ?_⟩
          intro since isPrefix
          rw [List.prefix_nil.mp isPrefix]
          exact ranked

/-- The address a bounty was queued with is its address as long as it is
ranked. -/
theorem redeemAddress?_of_isQueuedWith
    (queued : IsQueuedWith costs history id address) :
    ((empty costs).run history).redeemAddress? id = some address := by
  obtain ⟨before, output, draw, after, rfl, named, unranked, ranked⟩ := queued
  induction after using List.reverseRecOn with
  | nil =>
      have enters := ranked [] (List.prefix_refl [])
      rw [run_concat] at enters ⊢
      obtain ⟨_, _, _, isInsert, _, recorded⟩ := exists_insert_of_entered unranked enters
      obtain ⟨⟨_, rfl⟩, _⟩ := isInsert
      exact recorded
  | append_singleton after operation inductionHypothesis =>
      have split : before ++ .insert ⟨output, address⟩ draw :: (after ++ [operation]) =
          (before ++ .insert ⟨output, address⟩ draw :: after) ++ [operation] := by simp
      have known := ranked after (List.prefix_append after [operation])
      have stays := ranked (after ++ [operation]) (List.prefix_refl _)
      rw [split, run_concat] at stays ⊢
      rw [redeemAddress?_step_of_kept known stays]
      exact inductionHypothesis fun since isPrefix =>
        ranked since (isPrefix.trans (List.prefix_append after [operation]))

/-- What is read off a schedule is what its history says.  Addresses are recorded
for just the ranked bounties, and each is the one the bounty was queued with; it
does not change as long as the bounty is ranked.  The names that have outputs
recorded are those of the entries.  The selected job is that of a ranked bounty
for its address.  Where no two bounties share an address, a finished job takes
just its bounty away; a puzzle that is no bounty's takes none. -/
structure KeepsAddresses
    (schedule : BountySchedule α)
    (costs : CostModel α)
    (history : List (Operation α)) : Prop where
  addressed_iff : ∀ id, (schedule.redeemAddress? id).isSome = true ↔
    schedule.ranking.contains id = true
  ranked_iff : ∀ id, schedule.ranking.contains id = true ↔
    ∃ entry ∈ schedule.ranking.entries, entry.id = id
  queued_iff : ∀ id address, schedule.redeemAddress? id = some address ↔
    IsQueuedWith costs history id address
  kept : ∀ operation : Operation α, ∀ id, schedule.ranking.contains id = true →
    (schedule.step operation).ranking.contains id = true →
      (schedule.step operation).redeemAddress? id = schedule.redeemAddress? id
  selected : schedule.selected = Job.absent ∨
    ∃ entry ∈ schedule.ranking.entries, ∃ address,
      schedule.redeemAddress? entry.id = some address ∧
        schedule.selected = Job.ofScript entry.script address
  finished : (∀ id other address, schedule.redeemAddress? id = some address →
      schedule.redeemAddress? other = some address → id = other) →
    ∀ entry ∈ schedule.ranking.entries, ∀ address,
      schedule.redeemAddress? entry.id = some address → ∀ completed draw,
      (Job.ofScript entry.script address).puzzle.equivalent completed = true →
        (schedule.finish completed draw).ranking.entries =
            schedule.ranking.entries.filter (fun other => other.id ≠ entry.id) ∧
          ∀ other, (schedule.finish completed draw).redeemAddress? other =
            if entry.id = other then none else schedule.redeemAddress? other
  unfinished : ∀ completed draw, (∀ entry ∈ schedule.ranking.entries, ∀ address,
      schedule.redeemAddress? entry.id = some address →
        (Job.ofScript entry.script address).puzzle.equivalent completed = false) →
    (schedule.finish completed draw).ranking = schedule.ranking ∧
      (schedule.finish completed draw).addresses = schedule.addresses

/-- Whatever happened to an empty schedule, it keeps the addresses that its
bounties were queued with. -/
theorem run_keepsAddresses
    (costs : CostModel α)
    (history : List (Operation α))
    (built : ∀ operation ∈ history, operation.IsBuilt) :
    ((empty costs).run history).KeepsAddresses costs history := by
  have records := run_records costs built
  refine
    { addressed_iff := fun id => by rw [records.addressed]
      ranked_iff := records.ranking.agrees.contains_iff
      queued_iff := fun id address =>
        ⟨isQueuedWith_of_redeemAddress? built, redeemAddress?_of_isQueuedWith⟩
      kept := fun operation id before after => redeemAddress?_step_of_kept before after
      selected := records.selected
      finished := ?_
      unfinished := ?_ }
  · intro separate entry present address recorded completed draw solved
    have found := records.find?_eq_some separate present recorded solved
    rw [finish_of_find?_eq_some found]
    refine ⟨?_, fun other => redeemAddress?_remove _ entry.id draw other⟩
    rw [← records.ranking.agrees.entries_remove, ← ranking_remove _ entry.id draw]
    rfl
  · intro completed draw unsolved
    rw [finish_of_find?_eq_none ((records.find?_eq_none_iff completed).mpr unsolved)]
    exact ⟨rfl, rfl⟩

/-- An output of one script, from different transactions. -/
def repeatedBounty
    (transaction : UInt8) :
    Output :=
  .ofScript ⟨.filled 32 transaction, 0⟩ (.bounty 0 (.filled 32 0x11) ⟨0x1d00ffff⟩ [] 1 []) 50

/-- A bounty is queued and paid again, each time with an address of its own. -/
def queuedTwice : List (Operation Rat) :=
  [.insert ⟨repeatedBounty 1, .filled 20 1⟩ 0, .insert ⟨repeatedBounty 2, .filled 20 2⟩ 0]

theorem run_keepsAddresses_queuedTwice :
    (∀ operation ∈ queuedTwice, operation.IsBuilt) ∧
      ((empty ⟨3, 0⟩).run queuedTwice).redeemAddress? (repeatedBounty 2).id =
        some (.filled 20 1) ∧
      ((empty ⟨3, 0⟩).run queuedTwice).KeepsAddresses ⟨3, 0⟩ queuedTwice := by
  have built : ∀ operation ∈ queuedTwice, operation.IsBuilt := by
    intro operation present
    simp only [queuedTwice, List.mem_cons, List.not_mem_nil, or_false] at present
    rcases present with rfl | rfl
    · exact ⟨_, _, _, .bounty _ _ _ _ _ _, rfl⟩
    · exact ⟨_, _, _, .bounty _ _ _ _ _ _, rfl⟩
  exact ⟨built, by decide +kernel, run_keepsAddresses ⟨3, 0⟩ queuedTwice built⟩

end Histories

end BountySchedule
end WorkMarket
