import WorkMarket.Proofs.Market.BoardBounds
import WorkMarket.Proofs.Market.ContractJobs
import WorkMarket.Proofs.Market.RankOrder
import WorkMarket.Proofs.Number.RunningTotal

/-!
# The total difficulty of what is held

The ranking of bounties, the queue of contracts and the board of jobs in progress
each keep the total difficulty of what they hold.  An operation holds a target
more, some targets fewer, or the same in another order, and changes the total by
just what it notes for them.  So after every history the stored total is that of
what is held.
-/

namespace WorkMarket

/-- A target that has a difficulty is priced at the view of it. -/
theorem Target.map_view_of_difficulty
    {α : Type}
    [Scalar α]
    {target : Target}
    {difficulty : Difficulty}
    (found : target.difficulty = .ok difficulty) :
    target.difficulty.map (Difficulty.view α) = .ok (difficulty.view α) := by
  rw [found]
  rfl

/-! ## Ranked bounties -/

/-- The target of a bounty with the difficulty noted for it. -/
def RankedBounty.weight
    {α : Type}
    (entry : RankedBounty α) :
    Target × α :=
  (entry.script.target, entry.difficulty)

namespace Ranking

section Contents

variable {α : Type}

/-- The targets of the ranked bounties. -/
def held
    (ranking : Ranking α) :
    List (Target × α) :=
  ranking.entries.map RankedBounty.weight

/-- Noting an output changes no target and no difficulty. -/
theorem held_addOutput
    (ranking : Ranking α)
    (output : Output) :
    (ranking.addOutput output).2.held = ranking.held := by
  rw [held, entries_addOutput, held]

/-- What is found first is what is left out first. -/
theorem perm_cons_eraseP
    {β : Type}
    {accepts : β → Bool}
    {values : List β}
    {value : β}
    (found : values.find? accepts = some value) :
    values.Perm (value :: values.eraseP accepts) := by
  obtain ⟨accepted, before, behind, rfl, others⟩ := List.find?_eq_some_iff_append.mp found
  have refused : ∀ other ∈ before, ¬accepts other = true := by simpa using others
  rw [List.eraseP_append_right _ refused, List.eraseP_cons_of_pos accepted]
  exact List.perm_middle

end Contents

variable {α : Type} [Scalar α] {ranking : Ranking α}

/-- Whether the stored difficulty is that of the ranked bounties. -/
def KeepsTotal
    (ranking : Ranking α) : Prop :=
  IsTotalOf ranking.difficulty ranking.held

theorem KeepsTotal.addOutput
    (keeps : ranking.KeepsTotal)
    (output : Output) :
    (ranking.addOutput output).2.KeepsTotal := by
  have same : (ranking.addOutput output).2.difficulty = ranking.difficulty := by
    unfold Ranking.addOutput
    split <;> rfl
  unfold KeepsTotal
  rw [held_addOutput, same]
  exact keeps

theorem KeepsTotal.push
    (keeps : ranking.KeepsTotal)
    (output : Output) :
    (ranking.push output).KeepsTotal := by
  refine push_keeps output keeps (keeps.addOutput output) fun difficulty _ found enters => ?_
  have total := IsTotalOf.add keeps (Target.map_view_of_difficulty found)
    (enters.perm_entries.map RankedBounty.weight)
  unfold KeepsTotal
  rwa [enters.difficulty_eq]

theorem KeepsTotal.remove
    (keeps : ranking.KeepsTotal)
    (id : Digest) :
    (ranking.remove id).2.KeepsTotal := by
  unfold Ranking.remove
  cases ranking.recorded.get? id with
  | none => exact keeps
  | some outpoints =>
      cases found : ranking.get? id with
      | none => exact keeps
      | some entry =>
          have total := IsTotalOf.leave keeps ((perm_cons_eraseP found).map RankedBounty.weight)
          rwa [List.isEmpty_map] at total

/-- One operation more keeps the total. -/
theorem KeepsTotal.step
    (keeps : ranking.KeepsTotal)
    (operation : Operation) :
    (ranking.step operation).KeepsTotal := by
  cases operation with
  | push output => exact keeps.push output
  | addOutput output => exact keeps.addOutput output
  | remove id => exact keeps.remove id

theorem run_keepsTotal
    (history : List Operation) :
    ((empty : Ranking α).run history).KeepsTotal := by
  unfold run
  apply List.foldlRecOn history Ranking.step IsTotalOf.nil
  intro ranking keeps operation _
  exact keeps.step operation

end Ranking

/-! ## Queued contracts -/

/-- The target of a contract with the difficulty counted for it. -/
def ContractJob.weight
    {α : Type}
    [Scalar α]
    (contract : ContractJob) :
    Target × α :=
  (contract.output.script.target, contract.difficulty)

namespace ContractQueue

variable {α : Type} [Scalar α]

/-- What can be done to a queue of contracts. -/
inductive Operation where
  | push (contract : ContractJob)
  | addOutput (output : Output)
  | pop
  | remove (id : Digest)

/-- The queue after one more operation. -/
def step
    (queue : ContractQueue α) :
    Operation → ContractQueue α
  | .push contract => queue.push contract
  | .addOutput output => (queue.addOutput output).2
  | .pop => queue.pop.2
  | .remove id => (queue.remove id).2

/-- The queue after a history. -/
def run
    (queue : ContractQueue α)
    (history : List Operation) :
    ContractQueue α :=
  history.foldl step queue

/-- The targets of the queued contracts. -/
def held
    (queue : ContractQueue α) :
    List (Target × α) :=
  queue.jobs.map ContractJob.weight

/-- Whether the stored difficulty is that of the queued contracts. -/
def KeepsTotal
    (queue : ContractQueue α) : Prop :=
  IsTotalOf queue.difficulty queue.held

variable {queue : ContractQueue α}

/-- Noting an output changes no target and no difficulty. -/
theorem held_addOutput
    (queue : ContractQueue α)
    (output : Output) :
    (queue.addOutput output).2.held = queue.held := by
  -- The weight of a contract depends on its output alone.
  have weights := congrArg
    (List.map fun output : Output => (ContractJob.weight ⟨output, default, []⟩ : Target × α))
    (map_output_addToFirst output queue.jobs)
  rw [List.map_map, List.map_map] at weights
  exact weights

/-- A contract that can be worked on has the difficulty of its target. -/
theorem map_view_of_isWorkable
    {contract : ContractJob}
    (workable : contract.isWorkable = true) :
    contract.output.script.target.difficulty.map (Difficulty.view α) =
      .ok contract.difficulty := by
  simp only [ContractJob.isWorkable, Bool.and_eq_true] at workable
  have found := (contract.output.script.target.difficulty_eq_ok_iff _).mpr ⟨workable.2, rfl⟩
  unfold ContractJob.difficulty LockingScript.difficulty
  rw [found]
  rfl

theorem KeepsTotal.push
    (keeps : queue.KeepsTotal)
    (contract : ContractJob) :
    (queue.push contract).KeepsTotal := by
  unfold ContractQueue.push
  split
  · rename_i workable
    exact IsTotalOf.add keeps (map_view_of_isWorkable workable)
      ((List.perm_append_singleton contract queue.jobs).map ContractJob.weight)
  · exact keeps

theorem KeepsTotal.pop
    (keeps : queue.KeepsTotal) :
    queue.pop.2.KeepsTotal := by
  unfold ContractQueue.pop
  split
  · exact keeps
  · rename_i contract rest jobs
    have goes : queue.held.Perm (contract.weight :: rest.map ContractJob.weight) := by
      rw [held, jobs, List.map_cons]
    have total := IsTotalOf.leave keeps goes
    rwa [List.isEmpty_map] at total

/-- Once the queue is empty, nothing is left to subtract. -/
theorem foldl_reduced_nil
    (removed : List ContractJob) :
    removed.foldl (reduced []) (Scalar.zero : α) = Scalar.zero := by
  induction removed with
  | nil => rfl
  | cons contract rest inductionHypothesis => exact inductionHypothesis

/-- What is left of a total after some contracts have gone is that of those
kept. -/
theorem isTotalOf_foldl_reduced
    {kept removed : List ContractJob}
    {total : α}
    (isTotal : IsTotalOf total ((removed ++ kept).map ContractJob.weight)) :
    IsTotalOf (removed.foldl (reduced kept) total) (kept.map ContractJob.weight) := by
  by_cases nobody : kept = []
  · subst nobody
    cases removed with
    | nil => exact isTotal
    | cons contract rest =>
        have nothing : (contract :: rest).foldl (reduced []) total = Scalar.zero :=
          foldl_reduced_nil rest
        rw [nothing]
        exact IsTotalOf.nil
  · induction removed generalizing total with
    | nil => exact isTotal
    | cons contract rest inductionHypothesis =>
        have others : ((rest ++ kept).map (ContractJob.weight (α := α))).isEmpty = false := by
          simp [nobody]
        have remaining : kept.isEmpty = false := by simp [nobody]
        have total := isTotal.leave
          (List.Perm.refl (contract.weight :: (rest ++ kept).map ContractJob.weight))
        rw [others] at total
        refine inductionHypothesis ?_
        rwa [reduced, remaining]

theorem KeepsTotal.remove
    (keeps : queue.KeepsTotal)
    (id : Digest) :
    (queue.remove id).2.KeepsTotal := by
  unfold ContractQueue.remove
  rw [List.partition_eq_filter_filter]
  refine isTotalOf_foldl_reduced (IsTotalOf.of_perm keeps (List.Perm.map _ ?_))
  exact List.filter_append_perm _ _

/-- One operation more keeps the total. -/
theorem KeepsTotal.step
    (keeps : queue.KeepsTotal)
    (operation : Operation) :
    (queue.step operation).KeepsTotal := by
  cases operation with
  | push contract => exact keeps.push contract
  | addOutput output =>
      unfold KeepsTotal
      rw [ContractQueue.step, held_addOutput]
      exact keeps
  | pop => exact keeps.pop
  | remove id => exact keeps.remove id

theorem run_keepsTotal
    (history : List Operation) :
    ((empty : ContractQueue α).run history).KeepsTotal := by
  unfold run
  apply List.foldlRecOn history ContractQueue.step IsTotalOf.nil
  intro queue keeps operation _
  exact keeps.step operation

end ContractQueue

/-! ## Jobs in progress -/

/-- The target of a job in progress with the difficulty noted for it. -/
def TrackedJob.weight
    {α : Type}
    (tracked : TrackedJob α) :
    Target × α :=
  (tracked.job.puzzle.target, tracked.difficulty)

namespace WorkBoard

/-- The targets of the jobs in progress. -/
def held
    {α : Type}
    (board : WorkBoard α) :
    List (Target × α) :=
  board.jobs.entries.map fun entry => entry.2.weight

theorem held_eq
    {α : Type}
    (board : WorkBoard α) :
    board.held = board.jobs.values.map TrackedJob.weight := by
  rw [held, Keyed.values, List.map_map]
  rfl

variable {α : Type} [Scalar α] {board next : WorkBoard α} {operation : Operation α}

/-- Whether no job is tracked twice and the stored difficulty is that of the jobs in
progress. -/
structure KeepsTotal (board : WorkBoard α) : Prop where
  distinct : board.jobs.keys.Nodup
  total : IsTotalOf board.difficulty board.held

/-- Other workers on a job change neither its target nor its difficulty. -/
theorem KeepsTotal.put
    (keeps : board.KeepsTotal)
    {id : Digest}
    {earlier tracked : TrackedJob α}
    (found : board.jobs.get? id = some earlier)
    (same : tracked.weight = earlier.weight) :
    KeepsTotal { board with jobs := board.jobs.put id tracked } where
  distinct := Keyed.nodup_keys_put keeps.distinct id tracked
  total := by
    have weights := (Keyed.perm_entries_put found tracked).map
      fun entry => TrackedJob.weight entry.2
    rw [List.map_cons, List.map_cons, same] at weights
    exact keeps.total.of_perm weights.cons_inv

/-- A job that comes off the board goes with its difficulty. -/
theorem KeepsTotal.untrack
    (keeps : board.KeepsTotal)
    {id : Digest}
    {tracked : TrackedJob α}
    (found : board.jobs.get? id = some tracked) :
    (board.untrack id tracked).KeepsTotal where
  distinct := Keyed.nodup_keys_erase keeps.distinct id
  total := by
    have weights := (Keyed.perm_entries_erase keeps.distinct found).map
      fun entry => TrackedJob.weight entry.2
    have total := keeps.total.leave weights.symm
    rwa [List.isEmpty_map] at total

/-- Another order of the jobs has the same total. -/
theorem KeepsTotal.rearrange
    (keeps : board.KeepsTotal)
    (arrangement : Arrangement) :
    (board.rearrange arrangement).KeepsTotal where
  distinct := nodup_keys_rearrange keeps.distinct arrangement
  total := by
    have weights : (board.rearrange arrangement).held.Perm board.held := by
      rw [held_eq, held_eq]
      exact board.perm_values_rearrange arrangement fun _ _ => rfl
    exact keeps.total.of_perm weights

/-- Every change keeps the total. -/
theorem KeepsTotal.change
    (keeps : board.KeepsTotal)
    (change : board.Change operation next) :
    next.KeepsTotal := by
  cases change with
  | kept => exact keeps
  | joined found slow => exact keeps.put found rfl
  | begun absent room priced light slow =>
      refine ⟨Keyed.nodup_keys_put keeps.distinct _ _,
        keeps.total.add (Target.map_view_of_difficulty priced) ?_⟩
      rw [held, Keyed.entries_put_of_get?_eq_none absent, List.map_append]
      exact List.perm_append_singleton _ _
  | reduced found staffed => exact keeps.put found rfl
  | untracked _ found => exact keeps.untrack found
  | rearranged arrangement => exact keeps.rearrange arrangement

theorem run_keepsTotal
    (limits : BoardLimits α)
    (history : List (Operation α)) :
    ((empty limits).run history).KeepsTotal := by
  unfold run
  apply List.foldlRecOn history WorkBoard.step ⟨List.nodup_nil, IsTotalOf.nil⟩
  intro board keeps operation _
  exact keeps.change (change_step keeps.distinct operation)

end WorkBoard

/-- After any history the stored total of a ranking, of a queue and of a board is
that of the targets held, for every kind of scalar.  The zero of the doubles, which
an empty container has, is exactly zero, and sums of rational numbers are exact. -/
theorem difficulty_run_isTotalOf_held
    : (∀ (α : Type) [Scalar α],
        (∀ history, IsTotalOf ((Ranking.empty : Ranking α).run history).difficulty
          ((Ranking.empty : Ranking α).run history).held) ∧
        (∀ history, IsTotalOf ((ContractQueue.empty : ContractQueue α).run history).difficulty
          ((ContractQueue.empty : ContractQueue α).run history).held) ∧
        (∀ (limits : BoardLimits α) history,
          IsTotalOf ((WorkBoard.empty limits).run history).difficulty
            ((WorkBoard.empty limits).run history).held)) ∧
      (Scalar.zero : Float) = 0.0 ∧ Scalar.AddsExactly Rat :=
  ⟨fun _ _ => ⟨Ranking.run_keepsTotal, ContractQueue.run_keepsTotal,
    fun limits history => (WorkBoard.run_keepsTotal limits history).total⟩,
    Scalar.zero_float, Scalar.addsExactly_rat⟩

end WorkMarket
