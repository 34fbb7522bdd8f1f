import WorkMarket.Proofs.Market.BoardWorkers
import WorkMarket.Proofs.Number.DurationOrder
import WorkMarket.Proofs.Number.ExactSums
import WorkMarket.Proofs.Number.RunningTotal
import WorkMarket.Proofs.Pow.ExactDifficulty

/-!
# The bounds of the board

A job is let in within the limits of the board, and a worker only if the job
does not become too fast by it.  What leaves the board can only make room.  So
all three bounds hold after any history, whatever order workers come and go in and
whatever order the board has them in.
-/

namespace WorkMarket

/-- More hashpower makes no job slower. -/
theorem expectedTime_antitone
    {difficulty hashpower more : Rat}
    (nonneg : 0 ≤ difficulty)
    (ordered : hashpower ≤ more) :
    expectedTime difficulty more ≤ expectedTime difficulty hashpower := by
  unfold expectedTime
  by_cases idle : hashpower ≤ Scalar.zero
  · rw [if_pos idle]
    exact Duration.le_longest _
  · have positive : 0 < hashpower := not_le.mp idle
    have morePositive : 0 < more := positive.trans_le ordered
    have busy : ¬more ≤ Scalar.zero := not_le.mpr morePositive
    rw [if_neg idle, if_neg busy]
    exact Duration.getD_ofRational?_mono (div_nonneg nonneg morePositive.le)
      (div_le_div_of_nonneg_left nonneg positive ordered)

namespace WorkBoard

/-- What can be done to a board. -/
inductive Operation (α : Type) where
  | assign (job : Job) (worker : Waiting α)
  | release (worker : WorkerId)
  | complete (id : Digest) (solution : Option Solution)
  /-- Jobs and workers come into another order; there is none to rely on. -/
  | rearrange (arrangement : Arrangement)

section Changes

variable {α : Type} [Scalar α]

/-- The board after one more operation.  A refused completion changes nothing. -/
def step
    (board : WorkBoard α) :
    Operation α → WorkBoard α
  | .assign job worker => (board.assign job worker).2
  | .release worker => (board.release worker).2
  | .complete id solution =>
      match board.complete id solution with
      | .ok (_, next) => next
      | .error _ => board
  | .rearrange arrangement => board.rearrange arrangement

/-- The board after a history. -/
def run
    (board : WorkBoard α)
    (history : List (Operation α)) :
    WorkBoard α :=
  history.foldl step board

/-- All that an operation can do to a board: nothing, let a worker join a job or
begin one, take a worker off one of its jobs that others stay on, take a job off
the board, or bring what is there into another order. -/
inductive Change (board : WorkBoard α) : Operation α → WorkBoard α → Prop
  | kept
      (operation : Operation α) :
      Change board operation board
  | joined
      {job : Job}
      {worker : Waiting α}
      {tracked : TrackedJob α}
      (found : board.jobs.get? job.id = some tracked)
      (slow : ¬expectedTime tracked.difficulty (tracked.hashpower + worker.hashpower) <
        board.limits.minTime) :
      Change board (.assign job worker)
        { board with
          jobs := board.jobs.put job.id
            { tracked with workers := tracked.workers.put worker.worker worker.hashpower } }
  | begun
      {job : Job}
      {worker : Waiting α}
      {difficulty : Difficulty}
      (absent : board.jobs.get? job.id = none)
      (room : ¬board.limits.maxJobs ≤ board.jobs.size)
      (priced : job.puzzle.target.difficulty = .ok difficulty)
      (light : ¬board.limits.maxDifficulty < board.difficulty + difficulty.view α)
      (slow : ¬expectedTime (difficulty.view α) worker.hashpower < board.limits.minTime) :
      Change board (.assign job worker)
        { board with
          jobs := board.jobs.put job.id
            ⟨job, difficulty.view α, Keyed.empty.put worker.worker worker.hashpower⟩
          difficulty := board.difficulty + difficulty.view α }
  | reduced
      {worker : WorkerId}
      {id : Digest}
      {tracked : TrackedJob α}
      (found : board.jobs.get? id = some tracked)
      (staffed : (tracked.workers.erase worker).entries ≠ []) :
      Change board (.release worker)
        { board with
          jobs := board.jobs.put id { tracked with workers := tracked.workers.erase worker } }
  | untracked
      (operation : Operation α)
      {id : Digest}
      {tracked : TrackedJob α}
      (found : board.jobs.get? id = some tracked) :
      Change board operation (board.untrack id tracked)
  | rearranged
      (arrangement : Arrangement) :
      Change board (.rearrange arrangement) (board.rearrange arrangement)

theorem change_assign
    (board : WorkBoard α)
    (job : Job)
    (worker : Waiting α) :
    board.Change (.assign job worker) (board.assign job worker).2 := by
  unfold assign
  dsimp only
  cases found : board.jobs.get? job.id with
  | some tracked =>
      dsimp only
      unfold join
      dsimp only
      split
      · exact .kept _
      · rename_i slow
        exact .joined found slow
  | none =>
      dsimp only
      rcases board.begin_cases job.id job worker with
        ⟨_, same⟩ | ⟨_, priced, room, light, slow, begun⟩
      · rw [same]
        exact .kept _
      · rw [begun]
        exact .begun found room priced light slow

theorem change_release
    {board : WorkBoard α}
    (distinct : board.jobs.keys.Nodup)
    (worker : WorkerId) :
    board.Change (.release worker) (board.release worker).2 := by
  unfold release
  cases found : board.jobs.entries.find? _ with
  | none => exact .kept _
  | some entry =>
      obtain ⟨id, tracked⟩ := entry
      have tracks : board.jobs.get? id = some tracked :=
        (Keyed.get?_eq_some_iff_mem distinct id tracked).mpr (List.mem_of_find?_eq_some found)
      dsimp only
      split
      · exact .untracked _ tracks
      · rename_i staffed
        exact .reduced tracks fun empty => staffed (List.isEmpty_iff.mpr empty)

/-- Every operation makes one of the changes. -/
theorem change_step
    {board : WorkBoard α}
    (distinct : board.jobs.keys.Nodup)
    (operation : Operation α) :
    board.Change operation (board.step operation) := by
  cases operation with
  | assign job worker => exact board.change_assign job worker
  | release worker => exact change_release distinct worker
  | complete id solution =>
      unfold step complete
      dsimp only
      cases found : board.jobs.get? id with
      | none => exact .kept _
      | some tracked =>
          dsimp only
          split
          · rename_i completed
            split at completed
            · obtain ⟨_, rfl⟩ := Prod.mk.inj (Except.ok.inj completed)
              exact .untracked _ found
            · contradiction
          · exact .kept _
  | rearrange arrangement => exact .rearranged arrangement

/-- Where sums are exact, the order of jobs and workers does not matter to who is
let in, nor to what is told. -/
theorem fst_assign_rearrange
    (exact : Scalar.AddsExactly α)
    {board : WorkBoard α}
    (distinct : board.jobs.keys.Nodup)
    (arrangement : Arrangement)
    (job : Job)
    (worker : Waiting α) :
    ((board.rearrange arrangement).assign job worker).1 = (board.assign job worker).1 := by
  unfold assign
  dsimp only
  rw [get?_rearrange distinct]
  cases board.jobs.get? job.id with
  | some tracked =>
      have total : TrackedJob.hashpower
          { tracked with workers := tracked.workers.arrange (arrangement.workers job.id) } =
            tracked.hashpower :=
        exact.sum_perm ((tracked.workers.perm_entries_arrange _).map Prod.snd)
      dsimp only [Option.map_some]
      unfold join
      rw [total, limits_rearrange]
      dsimp only
      split <;> rfl
  | none =>
      dsimp only [Option.map_none]
      unfold begin
      rw [size_rearrange, limits_rearrange, difficulty_rearrange]
      split
      · rfl
      · cases job.puzzle.target.difficulty with
        | error failure => rfl
        | ok difficulty =>
            dsimp only
            split
            · rfl
            · split <;> rfl

end Changes

end WorkBoard

/-- Whether a job may be on the board under a name: it is the job of that name
and of the difficulty of its target, and its workers together do not solve it
too fast. -/
structure TrackedJob.IsAdmitted
    (tracked : TrackedJob Rat)
    (minTime : Duration)
    (id : Digest) : Prop where
  named : tracked.job.id = id
  priced : ∃ difficulty, tracked.job.puzzle.target.difficulty = .ok difficulty ∧
    tracked.difficulty = difficulty.view Rat
  staffed : tracked.workers.entries ≠ []
  distinct : tracked.workers.keys.Nodup
  hashpower_nonneg : ∀ hashpower ∈ tracked.workers.values, 0 ≤ hashpower
  slow : minTime ≤ expectedTime tracked.difficulty tracked.workers.values.sum

namespace TrackedJob.IsAdmitted

variable {tracked : TrackedJob Rat} {minTime : Duration} {id : Digest}

theorem difficulty_pos
    (admitted : tracked.IsAdmitted minTime id) :
    0 < tracked.difficulty := by
  obtain ⟨difficulty, priced, isDifficulty⟩ := admitted.priced
  rw [isDifficulty]
  exact Target.view_difficulty_pos priced

/-- Joining is judged by what all workers would bring, which is no less than what
they bring: a worker on the job already is counted twice. -/
theorem join
    (admitted : tracked.IsAdmitted minTime id)
    {worker : Waiting Rat}
    (nonneg : 0 ≤ worker.hashpower)
    (slow : ¬expectedTime tracked.difficulty (tracked.hashpower + worker.hashpower) < minTime) :
    IsAdmitted { tracked with workers := tracked.workers.put worker.worker worker.hashpower }
      minTime id where
  named := admitted.named
  priced := admitted.priced
  staffed := WorkBoard.entries_put_ne_nil _ _ _
  distinct := Keyed.nodup_keys_put admitted.distinct _ _
  hashpower_nonneg := by
    intro hashpower present
    rcases Keyed.mem_values_put present with rfl | before
    · exact nonneg
    · exact admitted.hashpower_nonneg hashpower before
  slow := by
    have total := Keyed.sum_put_le admitted.hashpower_nonneg worker.worker worker.hashpower
    rw [hashpower, scalarSum_eq] at slow
    exact Nat.le_trans (Nat.not_lt.mp slow)
      (expectedTime_antitone admitted.difficulty_pos.le total)

/-- A worker who leaves makes the job slower. -/
theorem leave
    (admitted : tracked.IsAdmitted minTime id)
    {worker : WorkerId}
    (staffed : (tracked.workers.erase worker).entries ≠ []) :
    IsAdmitted { tracked with workers := tracked.workers.erase worker } minTime id where
  named := admitted.named
  priced := admitted.priced
  staffed := staffed
  distinct := Keyed.nodup_keys_erase admitted.distinct _
  hashpower_nonneg := by
    intro hashpower present
    obtain ⟨entry, kept, rfl⟩ := List.mem_map.mp present
    exact admitted.hashpower_nonneg _ (List.mem_map_of_mem (List.mem_filter.mp kept).1)
  slow := Nat.le_trans admitted.slow (expectedTime_antitone admitted.difficulty_pos.le
    (Keyed.sum_erase_le admitted.hashpower_nonneg worker))

/-- The order of its workers makes a job neither slower nor faster. -/
theorem arrange
    (admitted : tracked.IsAdmitted minTime id)
    (order : List WorkerId) :
    IsAdmitted { tracked with workers := tracked.workers.arrange order } minTime id where
  named := admitted.named
  priced := admitted.priced
  staffed := fun empty => admitted.staffed
    (List.perm_nil.mp (empty ▸ tracked.workers.perm_entries_arrange order).symm)
  distinct := Keyed.nodup_keys_arrange admitted.distinct order
  hashpower_nonneg := fun hashpower present => admitted.hashpower_nonneg hashpower
    (((tracked.workers.perm_entries_arrange order).map Prod.snd).mem_iff.mp present)
  slow := by
    have total := ((tracked.workers.perm_entries_arrange order).map Prod.snd).sum_eq
    unfold Keyed.values
    rw [total]
    exact admitted.slow

end TrackedJob.IsAdmitted

/-- The only worker on a new job is judged alone. -/
theorem TrackedJob.isAdmitted_first
    {job : Job}
    {worker : Waiting Rat}
    {difficulty : Difficulty}
    {minTime : Duration}
    (priced : job.puzzle.target.difficulty = .ok difficulty)
    (nonneg : 0 ≤ worker.hashpower)
    (slow : ¬expectedTime (difficulty.view Rat) worker.hashpower < minTime) :
    IsAdmitted ⟨job, difficulty.view Rat, Keyed.empty.put worker.worker worker.hashpower⟩
      minTime job.id where
  named := rfl
  priced := ⟨difficulty, priced, rfl⟩
  staffed := WorkBoard.entries_put_ne_nil _ _ _
  distinct := List.nodup_singleton _
  hashpower_nonneg := by
    intro hashpower present
    rw [List.mem_singleton.mp present]
    exact nonneg
  slow := by
    rw [Keyed.sum_values_single]
    exact Nat.not_lt.mp slow

namespace WorkBoard

variable {board next : WorkBoard Rat} {limits : BoardLimits Rat} {operation : Operation Rat}

section Admissions

/-- Whether a board of given limits holds admitted jobs only. -/
structure HoldsAdmitted
    (board : WorkBoard Rat)
    (limits : BoardLimits Rat) : Prop where
  limits_eq : board.limits = limits
  distinct : board.jobs.keys.Nodup
  admitted : ∀ id tracked, board.jobs.get? id = some tracked →
    tracked.IsAdmitted limits.minTime id

/-- An admitted job may be put among admitted ones. -/
theorem admitted_put
    {jobs : Keyed Digest (TrackedJob Rat)}
    {minTime : Duration}
    {id : Digest}
    {tracked : TrackedJob Rat}
    (before : ∀ id tracked, jobs.get? id = some tracked → tracked.IsAdmitted minTime id)
    (admitted : tracked.IsAdmitted minTime id)
    (other : Digest)
    (present : TrackedJob Rat)
    (atOther : (jobs.put id tracked).get? other = some present) :
    present.IsAdmitted minTime other := by
  rw [Keyed.get?_put] at atOther
  split at atOther
  · rename_i same
    obtain rfl := Option.some.inj atOther
    exact same ▸ admitted
  · exact before other present atOther

theorem HoldsAdmitted.put
    (holds : board.HoldsAdmitted limits)
    {id : Digest}
    {tracked : TrackedJob Rat}
    (admitted : tracked.IsAdmitted limits.minTime id)
    (difficulty : Rat) :
    HoldsAdmitted
      { board with
        jobs := board.jobs.put id tracked
        difficulty := difficulty } limits where
  limits_eq := holds.limits_eq
  distinct := Keyed.nodup_keys_put holds.distinct id tracked
  admitted := admitted_put holds.admitted admitted

theorem HoldsAdmitted.untrack
    (holds : board.HoldsAdmitted limits)
    (id : Digest)
    (tracked : TrackedJob Rat) :
    (board.untrack id tracked).HoldsAdmitted limits where
  limits_eq := holds.limits_eq
  distinct := Keyed.nodup_keys_erase holds.distinct id
  admitted := fun other present atOther =>
    holds.admitted other present (get?_of_erased rfl atOther).2

theorem HoldsAdmitted.rearrange
    (holds : board.HoldsAdmitted limits)
    (arrangement : Arrangement) :
    (board.rearrange arrangement).HoldsAdmitted limits where
  limits_eq := holds.limits_eq
  distinct := nodup_keys_rearrange holds.distinct arrangement
  admitted := by
    intro id tracked found
    rw [get?_rearrange holds.distinct, Option.map_eq_some_iff] at found
    obtain ⟨earlier, before, rfl⟩ := found
    exact (holds.admitted id earlier before).arrange _

/-- No change lets in a job that is not admitted, whatever the bound on the
difficulty is. -/
theorem HoldsAdmitted.change
    (holds : board.HoldsAdmitted limits)
    (brings : ∀ job worker, operation = .assign job worker → 0 ≤ worker.hashpower)
    (change : board.Change operation next) :
    next.HoldsAdmitted limits := by
  obtain rfl := holds.limits_eq
  cases change with
  | kept => exact holds
  | joined found slow =>
      exact holds.put ((holds.admitted _ _ found).join (brings _ _ rfl) slow) board.difficulty
  | begun absent room priced light slow =>
      exact holds.put (TrackedJob.isAdmitted_first priced (brings _ _ rfl) slow) _
  | reduced found staffed =>
      exact holds.put ((holds.admitted _ _ found).leave staffed) board.difficulty
  | untracked _ found => exact holds.untrack _ _
  | rearranged arrangement => exact holds.rearrange arrangement

theorem holdsAdmitted_run
    (limits : BoardLimits Rat)
    {history : List (Operation Rat)}
    (brings : ∀ job worker, .assign job worker ∈ history → 0 ≤ worker.hashpower) :
    ((empty limits).run history).HoldsAdmitted limits := by
  induction history using List.reverseRecOn with
  | nil => exact ⟨rfl, List.nodup_nil, by simp [run, empty]⟩
  | append_singleton history operation inductionHypothesis =>
      have before := inductionHypothesis fun job worker present =>
        brings job worker (List.mem_append_left _ present)
      rw [run, List.foldl_append]
      refine before.change (fun job worker isOperation => ?_)
        (change_step before.distinct operation)
      exact brings job worker (by simp [isOperation])

end Admissions

/-- Whether a board keeps to its limits.  There are not too many jobs, each is
admitted under its name, and the stored difficulty is what the jobs add up to,
which is not too much. -/
structure RespectsLimits
    (board : WorkBoard Rat)
    (limits : BoardLimits Rat) : Prop where
  limits_eq : board.limits = limits
  distinct : board.jobs.keys.Nodup
  admitted : ∀ id tracked, board.jobs.get? id = some tracked →
    tracked.IsAdmitted limits.minTime id
  size_le : board.jobs.size ≤ limits.maxJobs
  difficulty_eq : board.difficulty = (board.jobs.values.map TrackedJob.difficulty).sum
  difficulty_le : board.difficulty ≤ limits.maxDifficulty

section Bounds

theorem RespectsLimits.holdsAdmitted
    (respects : board.RespectsLimits limits) :
    board.HoldsAdmitted limits :=
  ⟨respects.limits_eq, respects.distinct, respects.admitted⟩

theorem respectsLimits_empty
    (nonneg : 0 ≤ limits.maxDifficulty) :
    (empty limits).RespectsLimits limits where
  limits_eq := rfl
  distinct := List.nodup_nil
  admitted := by simp [empty]
  size_le := Nat.zero_le _
  difficulty_eq := rfl
  difficulty_le := nonneg

/-- Other workers on a job change neither the number of jobs nor their
difficulty. -/
theorem RespectsLimits.put
    (respects : board.RespectsLimits limits)
    {id : Digest}
    {earlier tracked : TrackedJob Rat}
    (found : board.jobs.get? id = some earlier)
    (same : tracked.difficulty = earlier.difficulty)
    (admitted : tracked.IsAdmitted limits.minTime id) :
    RespectsLimits { board with jobs := board.jobs.put id tracked } limits := by
  have holds := respects.holdsAdmitted.put admitted board.difficulty
  refine ⟨holds.limits_eq, holds.distinct, holds.admitted, ?_, ?_, respects.difficulty_le⟩
  · rw [Keyed.size_put_of_some found]
    exact respects.size_le
  · have total := Keyed.sum_put_of_some TrackedJob.difficulty found tracked
    rw [same] at total
    rw [respects.difficulty_eq]
    exact (add_left_cancel total).symm

/-- A new job is let in only where there is room for it. -/
theorem RespectsLimits.begin
    (respects : board.RespectsLimits limits)
    {id : Digest}
    {tracked : TrackedJob Rat}
    (absent : board.jobs.get? id = none)
    (room : board.jobs.size < limits.maxJobs)
    (light : board.difficulty + tracked.difficulty ≤ limits.maxDifficulty)
    (admitted : tracked.IsAdmitted limits.minTime id) :
    RespectsLimits
      { board with
        jobs := board.jobs.put id tracked
        difficulty := board.difficulty + tracked.difficulty } limits := by
  have holds := respects.holdsAdmitted.put admitted (board.difficulty + tracked.difficulty)
  refine ⟨holds.limits_eq, holds.distinct, holds.admitted, ?_, ?_, light⟩
  · rw [Keyed.size, Keyed.entries_put_of_get?_eq_none absent, List.length_append]
    exact room
  · rw [Keyed.sum_put_of_none TrackedJob.difficulty absent tracked, respects.difficulty_eq]

/-- A job that comes off the board frees its place and its difficulty. -/
theorem RespectsLimits.untrack
    (respects : board.RespectsLimits limits)
    {id : Digest}
    {tracked : TrackedJob Rat}
    (found : board.jobs.get? id = some tracked) :
    (board.untrack id tracked).RespectsLimits limits := by
  have left := Keyed.sum_erase TrackedJob.difficulty respects.distinct found
  rw [← respects.difficulty_eq] at left
  have positive := (respects.admitted id tracked found).difficulty_pos
  have difficulty : (board.untrack id tracked).difficulty =
      (((board.untrack id tracked).jobs.values).map TrackedJob.difficulty).sum := by
    unfold WorkBoard.untrack
    dsimp only
    split
    · rename_i nobody
      rw [Keyed.values, List.isEmpty_iff.mp nobody]
      rfl
    · rw [← left, add_sub_cancel_left]
  have holds := respects.holdsAdmitted.untrack id tracked
  refine ⟨holds.limits_eq, holds.distinct, holds.admitted, ?_, difficulty, ?_⟩
  · have size := Keyed.size_erase respects.distinct found
    have bound := respects.size_le
    change (board.jobs.erase id).size ≤ limits.maxJobs
    omega
  · rw [difficulty]
    refine le_trans ?_ respects.difficulty_le
    rw [← left]
    exact le_add_of_nonneg_left positive.le

/-- Another order changes neither the number of jobs nor their difficulty. -/
theorem RespectsLimits.rearrange
    (respects : board.RespectsLimits limits)
    (arrangement : Arrangement) :
    (board.rearrange arrangement).RespectsLimits limits := by
  have holds := respects.holdsAdmitted.rearrange arrangement
  have difficulties : ((board.rearrange arrangement).jobs.values.map TrackedJob.difficulty).Perm
      (board.jobs.values.map TrackedJob.difficulty) :=
    board.perm_values_rearrange arrangement fun _ _ => rfl
  refine ⟨holds.limits_eq, holds.distinct, holds.admitted, ?_, ?_, respects.difficulty_le⟩
  · rw [size_rearrange]
    exact respects.size_le
  · rw [difficulties.sum_eq]
    exact respects.difficulty_eq

/-- No change breaks a limit. -/
theorem RespectsLimits.change
    (respects : board.RespectsLimits limits)
    (brings : ∀ job worker, operation = .assign job worker → 0 ≤ worker.hashpower)
    (change : board.Change operation next) :
    next.RespectsLimits limits := by
  obtain rfl := respects.limits_eq
  cases change with
  | kept => exact respects
  | joined found slow =>
      exact respects.put found rfl
        ((respects.admitted _ _ found).join (brings _ _ rfl) slow)
  | begun absent room priced light slow =>
      exact respects.begin absent (Nat.not_le.mp room) (not_lt.mp light)
        (TrackedJob.isAdmitted_first priced (brings _ _ rfl) slow)
  | reduced found staffed =>
      exact respects.put found rfl ((respects.admitted _ _ found).leave staffed)
  | untracked _ found => exact respects.untrack found
  | rearranged arrangement => exact respects.rearrange arrangement

/-- Whatever workers did that bring no negative hashpower, the board keeps to its
limits. -/
theorem run_respectsLimits
    (limits : BoardLimits Rat)
    (nonneg : 0 ≤ limits.maxDifficulty)
    (history : List (Operation Rat))
    (brings : ∀ job worker, .assign job worker ∈ history → 0 ≤ worker.hashpower) :
    ((empty limits).run history).RespectsLimits limits := by
  induction history using List.reverseRecOn with
  | nil => exact respectsLimits_empty nonneg
  | append_singleton history operation inductionHypothesis =>
      have before := inductionHypothesis fun job worker present =>
        brings job worker (List.mem_append_left _ present)
      rw [run, List.foldl_append]
      refine before.change (fun job worker isOperation => ?_)
        (change_step before.distinct operation)
      exact brings job worker (by simp [isOperation])

/-- Room for two jobs of difficulty one, each to take at least a second. -/
def narrow : BoardLimits Rat :=
  ⟨2, 2, Duration.ofSeconds 1⟩

/-- One worker joins a job of difficulty one twice, a second joins it, and a third
would make it too fast. -/
def crowding : List (Operation Rat) :=
  let job := Job.ofScript (.bounty 0 (.filled 32 0x11) ⟨0x1d00ffff⟩ [] 1 []) (.filled 20 9)
  [.assign job ⟨⟨1⟩, 1 / 2⟩, .assign job ⟨⟨1⟩, 1 / 2⟩, .assign job ⟨⟨2⟩, 1 / 4⟩,
    .assign job ⟨⟨3⟩, 1 / 2⟩]

theorem run_respectsLimits_crowding :
    0 ≤ narrow.maxDifficulty ∧
      (∀ job worker, .assign job worker ∈ crowding → 0 ≤ worker.hashpower) ∧
      ((empty narrow).run crowding).jobs.values.map (fun tracked => tracked.workers.values) =
        [[1 / 2, 1 / 4]] ∧
      ((empty narrow).run crowding).RespectsLimits narrow := by
  have nonneg : 0 ≤ narrow.maxDifficulty := by decide
  have brings : ∀ job worker, .assign job worker ∈ crowding → 0 ≤ worker.hashpower := by
    intro job worker present
    simp only [crowding, List.mem_cons, Operation.assign.injEq, List.not_mem_nil, or_false]
      at present
    rcases present with ⟨-, rfl⟩ | ⟨-, rfl⟩ | ⟨-, rfl⟩ | ⟨-, rfl⟩ <;> decide +kernel
  exact ⟨nonneg, brings, by decide +kernel, run_respectsLimits narrow nonneg crowding brings⟩

end Bounds

end WorkBoard
end WorkMarket
