import WorkMarket.Proofs.Market.BountyAddresses
import WorkMarket.Proofs.Market.Selection

/-!
# Work for waiting workers

A schedule draws again when a bounty comes and none is selected, when the
selected one leaves, and whenever a job is finished.  It does not draw again
when a bounty leaves that is not selected.  Such a bounty can still be what
stood before all work: the selection stops at the first bounty that loses, and
with it gone may find one behind it that gains.  So a schedule with work to draw
has a job selected, unless a losing bounty left that hid a gaining one.
-/

namespace WorkMarket

section Entries

variable {α : Type}

/-- Whether work on a bounty gains something. -/
def RankedBounty.Gains
    (entry : RankedBounty Rat)
    (costs : CostModel Rat) : Prop :=
  ∃ gain, entry.profitability? costs = some gain ∧ 0 < gain

/-- Whether a ranked bounty gives a job to any miner, under the name of its
script. -/
structure RankedBounty.IsWorkable (entry : RankedBounty α) : Prop where
  named : entry.script.id = entry.id
  kind : entry.script.kind = .bounty
  target : entry.script.target.isValid = true

namespace RankedBounty

theorem IsWorkable.isValid_job
    {entry : RankedBounty α}
    (workable : entry.IsWorkable)
    (address : Address) :
    (Job.ofScript entry.script address).isValid = true := by
  have suited : Job.IsFor entry.script address := by
    simp [Job.IsFor, LockingScript.isValid, workable.kind, ScriptKind.isValid]
  rw [Job.isValid_ofScript suited, workable.target]

theorem isWorkable_ofOutput
    [Scalar α]
    {output : Output}
    {difficulty : Difficulty}
    (named : output.script.id = output.id)
    (kind : output.script.kind = .bounty)
    (found : output.script.difficulty = .ok difficulty) :
    (ofOutput (α := α) output difficulty).IsWorkable :=
  ⟨named, kind, ((Target.difficulty_eq_ok_iff _ _).mp found).1⟩

end RankedBounty

end Entries

namespace Ranking

section Work

variable {ranking : Ranking Rat} {costs : CostModel Rat}

/-- Whether some draw finds a script. -/
def HasWork
    (ranking : Ranking Rat)
    (costs : CostModel Rat) : Prop :=
  ∃ draw, 0 ≤ draw ∧ draw < 1 ∧ (ranking.select? costs draw).isSome = true

/-- Whether the bounty of a name is the first that loses and, with it gone, the
selection would find one behind it that gains. -/
def Hides
    (ranking : Ranking Rat)
    (costs : CostModel Rat)
    (id : Digest) : Prop :=
  ∃ losing behind, ranking.entries.dropWhile (RankedBounty.isWorthwhile costs) = losing :: behind ∧
    losing.id = id ∧
      ∃ entry ∈ behind.takeWhile (RankedBounty.isWorthwhile costs), entry.Gains costs

/-- There is work if one of the leading bounties that do not lose gains. -/
theorem hasWork_iff
    (ranking : Ranking Rat)
    (costs : CostModel Rat) :
    ranking.HasWork costs ↔
      ∃ entry ∈ ranking.entries.takeWhile (RankedBounty.isWorthwhile costs), entry.Gains costs := by
  constructor
  · rintro ⟨draw, _, _, selected⟩
    exact (ranking.isSome_select?_iff costs draw).mp selected
  · intro gains
    exact ⟨0, le_refl 0, one_pos, (ranking.isSome_select?_iff costs 0).mpr gains⟩

/-- Whether a draw finds a script does not depend on the draw. -/
theorem isSome_select?_iff_hasWork
    (ranking : Ranking Rat)
    (costs : CostModel Rat)
    (draw : Rat) :
    (ranking.select? costs draw).isSome = true ↔ ranking.HasWork costs :=
  (ranking.isSome_select?_iff costs draw).trans (ranking.hasWork_iff costs).symm

theorem hasWork_addOutput
    (ranking : Ranking Rat)
    (output : Output)
    (costs : CostModel Rat) :
    (ranking.addOutput output).2.HasWork costs ↔ ranking.HasWork costs := by
  rw [hasWork_iff, hasWork_iff, entries_addOutput]

/-- What the leading bounties that do not lose are followed by loses. -/
theorem losing_of_dropWhile
    {losing : RankedBounty Rat}
    {behind : List (RankedBounty Rat)}
    (rest : ranking.entries.dropWhile (RankedBounty.isWorthwhile costs) = losing :: behind) :
    losing.isWorthwhile costs = false := by
  have first := List.head?_dropWhile_not (RankedBounty.isWorthwhile costs) ranking.entries
  rw [rest] at first
  simpa using first

/-- Where there was no work, there is some after a bounty has left exactly if it
hid some. -/
theorem hasWork_remove_iff
    (agrees : ranking.Agrees)
    (idle : ¬ranking.HasWork costs)
    (id : Digest) :
    (ranking.remove id).2.HasWork costs ↔ ranking.Hides costs id := by
  let leading := ranking.entries.takeWhile (RankedBounty.isWorthwhile costs)
  have whole : leading ++ ranking.entries.dropWhile (RankedBounty.isWorthwhile costs) =
      ranking.entries := List.takeWhile_append_dropWhile
  have worthwhile : ∀ entry ∈ leading.filter fun entry => entry.id ≠ id,
      entry.isWorthwhile costs = true := fun entry present =>
    List.mem_takeWhile_imp (List.mem_of_mem_filter present)
  have nothing : ¬∃ entry ∈ leading.filter fun entry => entry.id ≠ id, entry.Gains costs := by
    rintro ⟨entry, present, gains⟩
    exact idle ((ranking.hasWork_iff costs).mpr ⟨entry, List.mem_of_mem_filter present, gains⟩)
  -- The leading bounties never gain, so all hangs on the ones behind.
  rw [hasWork_iff, agrees.entries_remove, ← whole, List.filter_append,
    List.takeWhile_append_of_pos worthwhile]
  simp only [List.mem_append, or_and_right, exists_or]
  rw [or_iff_right nothing]
  unfold Hides
  cases rest : ranking.entries.dropWhile (RankedBounty.isWorthwhile costs) with
  | nil => simp
  | cons losing behind =>
      have loses := losing_of_dropWhile rest
      by_cases leaves : losing.id = id
      · have names : ((losing :: behind).map RankedBounty.id).Nodup :=
          agrees.distinct.sublist ((rest ▸ List.dropWhile_sublist _).map RankedBounty.id)
        have kept : (losing :: behind).filter (fun entry => decide (entry.id ≠ id)) = behind := by
          rw [← Keyed.eraseP_eq_filter_of_nodup names id,
            List.eraseP_cons_of_pos (by simpa using leaves)]
        rw [kept]
        simp [leaves]
      · rw [List.filter_cons_of_pos (by simpa using leaves)]
        simp [loses, leaves]

/-- Where rank and worth agree, no bounty hides another. -/
theorem IsAligned.not_hides
    (aligned : ranking.IsAligned costs)
    (id : Digest) :
    ¬ranking.Hides costs id := by
  rintro ⟨losing, behind, rest, _, entry, present, _⟩
  have ordered : (losing :: behind).Pairwise fun before later =>
      later.isWorthwhile costs = true → before.isWorthwhile costs = true :=
    rest ▸ aligned.sublist (List.dropWhile_sublist _)
  have worthwhile := (List.pairwise_cons.mp ordered).1 entry
    ((List.takeWhile_sublist _).subset present) (List.mem_takeWhile_imp present)
  rw [losing_of_dropWhile rest] at worthwhile
  contradiction

end Work

section Workable

variable {α : Type} {ranking : Ranking α}

theorem isWorkable_of_mem_push
    [Scalar α]
    (workable : ∀ entry ∈ ranking.entries, entry.IsWorkable)
    {output : Output}
    (named : output.script.id = output.id)
    {entry : RankedBounty α}
    (present : entry ∈ (ranking.push output).entries) :
    entry.IsWorkable := by
  revert entry
  apply push_keeps (motive := fun next => ∀ entry ∈ next.entries, entry.IsWorkable) output workable
  · rwa [entries_addOutput]
  · intro difficulty kind found enters entry present
    rcases (enters.mem_entries_iff entry).mp present with rfl | before
    · exact RankedBounty.isWorkable_ofOutput named kind found
    · exact workable entry before

end Workable

end Ranking

namespace BountySchedule

/-- Whether an operation keeps the costs, and what it inserts is named as its
script. -/
def Operation.IsPlain
    {α : Type} :
    Operation α → Prop
  | .insert bounty _ => bounty.output.script.id = bounty.output.id
  | .withCosts _ => False
  | .addOutput _ | .remove _ _ | .select _ | .finish _ _ => True

/-- Whether the ranked bounties have addresses, and each gives a job. -/
structure IsWorkable
    {α : Type}
    (schedule : BountySchedule α) : Prop extends schedule.IsAddressed where
  workable : ∀ entry ∈ schedule.ranking.entries, entry.IsWorkable

theorem IsWorkable.addOutput
    {α : Type}
    {schedule : BountySchedule α}
    (works : schedule.IsWorkable)
    (output : Output) :
    (schedule.addOutput output).2.IsWorkable where
  toIsAddressed := works.toIsAddressed.addOutput output
  workable := by
    rw [ranking_addOutput, Ranking.entries_addOutput]
    exact works.workable

section Steps

variable {α : Type} [Scalar α] {schedule : BountySchedule α}

/-- Plain operations keep what each part of an operation keeps. -/
theorem IsInvariant.step
    {holds : BountySchedule α → Prop}
    (invariant : IsInvariant (fun bounty => bounty.output.script.id = bounty.output.id) holds)
    (before : holds schedule)
    {operation : Operation α}
    (plain : operation.IsPlain) :
    holds (schedule.step operation) := by
  cases operation with
  | insert bounty draw => exact invariant.insert before plain draw
  | addOutput output => exact invariant.noted schedule output before
  | remove id draw => exact invariant.remove before id draw
  | select draw => exact invariant.drawn schedule draw before
  | withCosts costs => exact plain.elim
  | finish completed draw => exact invariant.finish before completed draw

/-- What holds at the beginning and is kept by each part of an operation holds
after every history of plain operations. -/
theorem IsInvariant.run
    {holds : BountySchedule α → Prop}
    (invariant : IsInvariant (fun bounty => bounty.output.script.id = bounty.output.id) holds)
    (before : holds schedule)
    {history : List (Operation α)}
    (plain : ∀ operation ∈ history, operation.IsPlain) :
    holds (schedule.run history) := by
  unfold BountySchedule.run
  apply List.foldlRecOn (motive := holds) history BountySchedule.step before
  intro schedule kept operation present
  exact invariant.step kept (plain operation present)

theorem isWorkable_empty
    (costs : CostModel α) :
    (empty costs).IsWorkable where
  toIsAddressed := isAddressed_empty costs
  workable := by simp [empty, Ranking.empty]

theorem IsWorkable.entered
    (works : schedule.IsWorkable)
    {bounty : BountyJob}
    (named : bounty.output.script.id = bounty.output.id) :
    (schedule.entered bounty).IsWorkable where
  toIsAddressed := works.toIsAddressed.entered bounty
  workable := fun _ present => Ranking.isWorkable_of_mem_push works.workable named present

theorem IsWorkable.without
    (works : schedule.IsWorkable)
    (id : Digest) :
    (schedule.without id).IsWorkable where
  toIsAddressed := works.toIsAddressed.without id
  workable := fun entry present =>
    works.workable entry ((schedule.ranking.sublist_entries_remove id).subset present)

theorem isInvariant_isWorkable :
    IsInvariant (fun bounty => bounty.output.script.id = bounty.output.id)
      (IsWorkable : BountySchedule α → Prop) where
  entered := fun _ _ named works => works.entered named
  noted := fun _ output works => works.addOutput output
  without := fun _ id works => works.without id
  drawn := fun _ draw works =>
    ⟨isInvariant_isAddressed.drawn _ draw works.toIsAddressed, works.workable⟩

theorem isInvariant_costs
    (admits : BountyJob → Prop)
    (costs : CostModel α) :
    IsInvariant admits fun schedule => schedule.costs = costs where
  entered := fun _ _ _ same => same
  noted := fun _ _ same => same
  without := fun _ _ same => same
  drawn := fun _ _ same => same

/-- Bounties stand by descending rate. -/
theorem isInvariant_isRanked
    (admits : BountyJob → Prop) :
    IsInvariant admits fun schedule : BountySchedule Rat => schedule.ranking.IsRanked where
  entered := fun _ bounty _ ranked => ranked.push bounty.output
  noted := fun _ output ranked => ranked.addOutput output
  without := fun _ id ranked => ranked.remove id
  drawn := fun _ _ ranked => ranked

end Steps

section Service

variable {schedule : BountySchedule Rat}

/-- Whether every waiting worker is put on the selected job as long as some draw
finds work. -/
structure IsWorkConserving (schedule : BountySchedule Rat) : Prop where
  selected : schedule.ranking.HasWork schedule.costs → schedule.selected.isValid = true
  assigned : schedule.ranking.HasWork schedule.costs → ∀ waiting : List (Waiting Rat),
    schedule.assign waiting = waiting.map fun worker => ⟨worker.worker, schedule.selected.puzzle⟩

/-- A job that is selected is given to whoever waits. -/
theorem isWorkConserving_iff
    (schedule : BountySchedule Rat) :
    schedule.IsWorkConserving ↔
      (schedule.ranking.HasWork schedule.costs → schedule.selected.isValid = true) := by
  constructor
  · exact IsWorkConserving.selected
  · intro selected
    exact ⟨selected, fun work _ => if_pos (selected work)⟩

/-- A draw selects a job exactly if there is work. -/
theorem IsWorkable.isValid_drawn_iff
    (works : schedule.IsWorkable)
    (draw : Rat) :
    (schedule.drawn draw).isValid = true ↔ schedule.ranking.HasWork schedule.costs := by
  rw [← Ranking.isSome_select?_iff_hasWork schedule.ranking schedule.costs draw]
  unfold drawn
  cases selected : schedule.ranking.select? schedule.costs draw with
  | none => simp [Job.absent, Job.isValid, ScriptKind.isValid]
  | some script =>
      obtain ⟨entry, present, rfl⟩ := Ranking.exists_of_select? selected
      obtain ⟨address, recorded⟩ := works.exists_address present
      change schedule.addresses.get? entry.id = some address at recorded
      have workable := works.workable entry present
      simp only [workable.named, recorded, workable.isValid_job address, Option.isSome_some]

theorem IsWorkable.isWorkConserving_select
    (works : schedule.IsWorkable)
    (draw : Rat) :
    (schedule.select draw).IsWorkConserving :=
  (isWorkConserving_iff _).mpr (works.isValid_drawn_iff draw).mpr

theorem IsWorkable.isWorkConserving_insert
    (works : schedule.IsWorkable)
    {bounty : BountyJob}
    (named : bounty.output.script.id = bounty.output.id)
    (draw : Rat) :
    (schedule.insert bounty draw).IsWorkConserving := by
  rw [insert_eq]
  split
  · rename_i selected
    exact (isWorkConserving_iff _).mpr fun _ => selected
  · exact (works.entered named).isWorkConserving_select draw

theorem IsWorkConserving.addOutput
    (serves : schedule.IsWorkConserving)
    (output : Output) :
    (schedule.addOutput output).2.IsWorkConserving := by
  refine (isWorkConserving_iff _).mpr fun work => serves.selected ?_
  exact (schedule.ranking.hasWork_addOutput output schedule.costs).mp work

/-- Where a bounty leaves, its workers are served unless none was selected and
it hid some work. -/
theorem IsWorkable.isWorkConserving_remove_iff
    (works : schedule.IsWorkable)
    (serves : schedule.IsWorkConserving)
    (id : Digest)
    (draw : Rat) :
    (schedule.remove id draw).2.IsWorkConserving ↔
      (schedule.selected.isValid = false → ¬schedule.ranking.Hides schedule.costs id) := by
  rw [remove_eq]
  cases selected : schedule.selected.isValid with
  | true =>
      refine iff_of_true ?_ nofun
      split
      · exact (works.without id).isWorkConserving_select draw
      · exact (isWorkConserving_iff _).mpr fun _ => selected
  | false =>
      have idle : ¬schedule.ranking.HasWork schedule.costs := by
        intro work
        rw [serves.selected work] at selected
        contradiction
      rw [if_neg (by simp), isWorkConserving_iff, ← Ranking.hasWork_remove_iff works.agrees idle]
      change (_ → schedule.selected.isValid = true) ↔ _
      simp only [selected, Bool.false_eq_true, forall_const]
      rfl

/-- Every operation leaves a schedule that serves its workers, but one that
takes away a bounty which hid work while none was selected. -/
theorem IsWorkable.isWorkConserving_step_iff
    (works : schedule.IsWorkable)
    (serves : schedule.IsWorkConserving)
    {operation : Operation Rat}
    (plain : operation.IsPlain) :
    (schedule.step operation).IsWorkConserving ↔
      ∀ id draw, operation = .remove id draw → schedule.selected.isValid = false →
        ¬schedule.ranking.Hides schedule.costs id := by
  cases operation with
  | insert bounty draw => exact iff_of_true (works.isWorkConserving_insert plain draw) nofun
  | addOutput output => exact iff_of_true (serves.addOutput output) nofun
  | remove id draw =>
      refine (works.isWorkConserving_remove_iff serves id draw).trans ⟨?_, ?_⟩
      · rintro kept _ _ ⟨⟩
        exact kept
      · exact fun kept => kept id draw rfl
  | select draw => exact iff_of_true (works.isWorkConserving_select draw) nofun
  | withCosts costs => exact plain.elim
  | finish completed draw =>
      refine iff_of_true ?_ nofun
      change (schedule.finish completed draw).IsWorkConserving
      cases found : schedule.find? completed with
      | none =>
          rw [finish_of_find?_eq_none found]
          exact works.isWorkConserving_select draw
      | some id =>
          rw [finish_of_find?_eq_some found]
          exact (isInvariant_isWorkable.remove works id draw).isWorkConserving_select draw

end Service

section Histories

variable {costs : CostModel Rat} {history : List (Operation Rat)}

/-- Whether workers are served in every state of a history. -/
def NeverIdle
    (costs : CostModel Rat)
    (history : List (Operation Rat)) : Prop :=
  ∀ earlier, earlier <+: history → ((empty costs).run earlier).IsWorkConserving

/-- Whether some bounty leaves, in a history, that hides work while none is
selected. -/
def UncoversWork
    (costs : CostModel Rat)
    (history : List (Operation Rat)) : Prop :=
  ∃ earlier id draw, earlier ++ [.remove id draw] <+: history ∧
    ((empty costs).run earlier).selected.isValid = false ∧
      ((empty costs).run earlier).ranking.Hides costs id

theorem isWorkConserving_empty
    (costs : CostModel Rat) :
    (empty costs).IsWorkConserving := by
  refine (isWorkConserving_iff _).mpr fun work => ?_
  obtain ⟨entry, present, _⟩ := (Ranking.hasWork_iff _ _).mp work
  simp [empty, Ranking.empty] at present

/-- What one more operation does to the service of a history. -/
theorem isWorkConserving_concat_iff
    {operation : Operation Rat}
    (plain : ∀ earlier ∈ history ++ [operation], earlier.IsPlain)
    (serves : ((empty costs).run history).IsWorkConserving) :
    ((empty costs).run (history ++ [operation])).IsWorkConserving ↔
      ∀ id draw, operation = .remove id draw →
        ((empty costs).run history).selected.isValid = false →
          ¬((empty costs).run history).ranking.Hides costs id := by
  have plainBefore : ∀ operation ∈ history, operation.IsPlain := fun earlier present =>
    plain earlier (List.mem_append_left _ present)
  have works := isInvariant_isWorkable.run (isWorkable_empty costs) plainBefore
  have sameCosts : ((empty costs).run history).costs = costs :=
    (isInvariant_costs _ costs).run rfl plainBefore
  rw [run_concat, works.isWorkConserving_step_iff serves (plain operation (by simp)), sameCosts]

/-- Workers are served in every state exactly if no bounty leaves that hides work
while none is selected. -/
theorem neverIdle_iff
    (costs : CostModel Rat)
    (plain : ∀ operation ∈ history, operation.IsPlain) :
    NeverIdle costs history ↔ ¬UncoversWork costs history := by
  have plainUpTo {earlier : List (Operation Rat)} (isPrefix : earlier <+: history) :
      ∀ operation ∈ earlier, operation.IsPlain := fun operation present =>
    plain operation (isPrefix.subset present)
  constructor
  · rintro served ⟨earlier, id, draw, isPrefix, idle, hides⟩
    have before := served earlier ((List.prefix_append _ _).trans isPrefix)
    have after := (isWorkConserving_concat_iff (plainUpTo isPrefix) before).mp
      (served _ isPrefix)
    exact after id draw rfl idle hides
  · intro covered earlier isPrefix
    induction earlier using List.reverseRecOn with
    | nil => exact isWorkConserving_empty costs
    | append_singleton earlier operation inductionHypothesis =>
        have before := inductionHypothesis ((List.prefix_append _ _).trans isPrefix)
        refine (isWorkConserving_concat_iff (plainUpTo isPrefix) before).mpr ?_
        rintro id draw rfl idle hides
        exact covered ⟨earlier, id, draw, isPrefix, idle, hides⟩

/-- Where rank and worth agree in every state, no work is uncovered. -/
theorem not_uncoversWork_of_isAligned
    (aligned : ∀ earlier, earlier <+: history →
      ((empty costs).run earlier).ranking.IsAligned costs) :
    ¬UncoversWork costs history := by
  rintro ⟨earlier, id, draw, isPrefix, _, hides⟩
  exact (aligned earlier ((List.prefix_append _ _).trans isPrefix)).not_hides id hides

/-- A schedule has its workers served in every state, whatever is drawn, exactly
if no losing bounty leaves that hides a gaining one while none is selected.
Without a constant cost, and for work of one difficulty, that never happens. -/
theorem neverIdle_iff_not_uncoversWork
    (costs : CostModel Rat)
    (history : List (Operation Rat))
    (plain : ∀ operation ∈ history, operation.IsPlain) :
    (NeverIdle costs history ↔ ¬UncoversWork costs history) ∧
      (costs.IsAdmissible → costs.constant = 0 → NeverIdle costs history) ∧
      ∀ difficulty : Rat, costs.IsAdmissible →
        (∀ earlier, earlier <+: history →
          ∀ entry ∈ ((empty costs).run earlier).ranking.entries, entry.difficulty = difficulty) →
        NeverIdle costs history := by
  have exactly := neverIdle_iff costs plain
  have ranked {earlier : List (Operation Rat)} (isPrefix : earlier <+: history) :
      ((empty costs).run earlier).ranking.IsRanked :=
    (isInvariant_isRanked _).run Ranking.isRanked_empty fun operation present =>
      plain operation (isPrefix.subset present)
  refine ⟨exactly, ?_, ?_⟩
  · intro admissible free
    refine exactly.mpr (not_uncoversWork_of_isAligned fun earlier isPrefix => ?_)
    exact (ranked isPrefix).isAligned_of_constant_eq_zero admissible free
  · intro difficulty admissible equal
    refine exactly.mpr (not_uncoversWork_of_isAligned fun earlier isPrefix => ?_)
    exact (ranked isPrefix).isAligned_of_difficulty_eq admissible difficulty
      (equal earlier isPrefix)

/-- Two bounties come, and the easy one leaves. -/
def easyBountyLeaves : List (Operation Rat) :=
  [.insert ⟨Ranking.easyBounty, .filled 20 1⟩ 0, .insert ⟨Ranking.hardBounty, .filled 20 2⟩ 0,
    .remove Ranking.easyBounty.id 0]

theorem isPlain_easyBountyLeaves :
    ∀ operation ∈ easyBountyLeaves, operation.IsPlain := by
  intro operation present
  simp only [easyBountyLeaves, List.mem_cons, List.not_mem_nil, or_false] at present
  rcases present with rfl | rfl | rfl <;> trivial

/-- Without a constant cost both gain, and when the easy one leaves the hard one
is selected. -/
theorem neverIdle_easyBountyLeaves :
    (∀ operation ∈ easyBountyLeaves, operation.IsPlain) ∧
      (⟨3, 0⟩ : CostModel Rat).IsAdmissible ∧ NeverIdle ⟨3, 0⟩ easyBountyLeaves := by
  have admissible : (⟨3, 0⟩ : CostModel Rat).IsAdmissible :=
    ⟨by decide, by decide, .inl (by decide)⟩
  have never := neverIdle_iff_not_uncoversWork ⟨3, 0⟩ easyBountyLeaves isPlain_easyBountyLeaves
  exact ⟨isPlain_easyBountyLeaves, admissible, never.2.1 admissible rfl⟩

/-- At a constant cost of a hundred the easy bounty loses and hides the hard one,
which gains.  Once the easy one has left there is work, and none is selected. -/
theorem not_neverIdle_easyBountyLeaves :
    (∀ operation ∈ easyBountyLeaves, operation.IsPlain) ∧
      (⟨0, 100⟩ : CostModel Rat).IsAdmissible ∧ ¬NeverIdle ⟨0, 100⟩ easyBountyLeaves := by
  refine ⟨isPlain_easyBountyLeaves, ⟨by decide, by decide, .inr (by decide)⟩, fun served => ?_⟩
  have work : ((empty ⟨0, 100⟩).run easyBountyLeaves).ranking.HasWork ⟨0, 100⟩ :=
    ⟨0, by decide, by decide, by decide +kernel⟩
  have sameCosts : ((empty ⟨0, 100⟩).run easyBountyLeaves).costs = ⟨0, 100⟩ :=
    (isInvariant_costs _ _).run rfl isPlain_easyBountyLeaves
  have selected := (served easyBountyLeaves (List.prefix_refl _)).selected
  rw [sameCosts] at selected
  exact absurd (selected work) (by decide +kernel)

end Histories

end BountySchedule
end WorkMarket
