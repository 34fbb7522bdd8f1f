import WorkMarket.Market.WorkBoard
import WorkMarket.Proofs.Market.KeyedEntries

/-!
# Who is on the board

Every job on the board has a worker, and no worker is on two jobs.  A worker
that is released is on none, so it may be put on any; a job that loses its last
worker comes off the board.  In which order jobs and workers are gone through
does not matter.
-/

namespace WorkMarket
namespace WorkBoard

section Invariant

variable {α : Type} {board next : WorkBoard α}

/-- Whether a worker is on a job. -/
def HasWorker
    (board : WorkBoard α)
    (id : Digest)
    (worker : WorkerId) : Prop :=
  ∃ tracked, board.jobs.get? id = some tracked ∧ tracked.workers.contains worker = true

/-- Every job has a worker, and no worker is on two jobs or twice on one. -/
structure IsSound (board : WorkBoard α) : Prop where
  distinct : board.jobs.keys.Nodup
  staffed : ∀ id tracked, board.jobs.get? id = some tracked → tracked.workers.entries ≠ []
  once : ∀ id tracked, board.jobs.get? id = some tracked → tracked.workers.keys.Nodup
  exclusive : ∀ id other worker, board.HasWorker id worker → board.HasWorker other worker →
    id = other

theorem job?_eq_some_iff
    (board : WorkBoard α)
    (id : Digest)
    (job : Job) :
    board.job? id = some job ↔
      ∃ tracked, board.jobs.get? id = some tracked ∧ tracked.job = job := by
  simp [job?]

/-- The workers that the board shows for a job are those it has. -/
theorem hasWorker_iff_mem_workers
    (board : WorkBoard α)
    (id : Digest)
    (worker : WorkerId) :
    board.HasWorker id worker ↔ worker ∈ (board.workers id).map Waiting.worker := by
  unfold HasWorker WorkBoard.workers
  cases board.jobs.get? id with
  | none => simp
  | some tracked => simp [TrackedJob.waiting, Keyed.contains, Keyed.get?]

/-- A job can be put on the board with workers who are on no other. -/
theorem IsSound.put
    (sound : board.IsSound)
    {id : Digest}
    {tracked : TrackedJob α}
    (jobs : next.jobs = board.jobs.put id tracked)
    (staffed : tracked.workers.entries ≠ [])
    (once : tracked.workers.keys.Nodup)
    (exclusive : ∀ other worker, tracked.workers.contains worker = true →
      board.HasWorker other worker → other = id) :
    next.IsSound := by
  have cases {other : Digest} {worker : WorkerId} (has : next.HasWorker other worker) :
      (other = id ∧ tracked.workers.contains worker = true) ∨
        board.HasWorker other worker := by
    obtain ⟨found, atOther, inFound⟩ := has
    rw [jobs, Keyed.get?_put] at atOther
    split at atOther
    · rename_i same
      obtain rfl := Option.some.inj atOther
      exact Or.inl ⟨same.symm, inFound⟩
    · exact Or.inr ⟨found, atOther, inFound⟩
  refine ⟨?_, ?_, ?_, ?_⟩
  · rw [jobs]
    exact Keyed.nodup_keys_put sound.distinct id tracked
  · intro other found atOther
    rw [jobs, Keyed.get?_put] at atOther
    split at atOther
    · obtain rfl := Option.some.inj atOther
      exact staffed
    · exact sound.staffed other found atOther
  · intro other found atOther
    rw [jobs, Keyed.get?_put] at atOther
    split at atOther
    · obtain rfl := Option.some.inj atOther
      exact once
    · exact sound.once other found atOther
  · intro first second worker onFirst onSecond
    rcases cases onFirst with ⟨rfl, inTracked⟩ | before
    · rcases cases onSecond with ⟨rfl, _⟩ | otherBefore
      · rfl
      · exact (exclusive second worker inTracked otherBefore).symm
    · rcases cases onSecond with ⟨rfl, inTracked⟩ | otherBefore
      · exact exclusive first worker inTracked before
      · exact sound.exclusive first second worker before otherBefore

/-- Nobody is left out by putting a worker on a job. -/
theorem entries_put_ne_nil
    (workers : Keyed WorkerId α)
    (worker : WorkerId)
    (hashpower : α) :
    (workers.put worker hashpower).entries ≠ [] := by
  intro empty
  have found := Keyed.get?_put workers worker worker hashpower
  rw [if_pos rfl, Keyed.get?, empty] at found
  contradiction

/-- What is still on the board was there under another name. -/
theorem get?_of_erased
    {id other : Digest}
    {tracked : TrackedJob α}
    (jobs : next.jobs = board.jobs.erase id)
    (found : next.jobs.get? other = some tracked) :
    other ≠ id ∧ board.jobs.get? other = some tracked := by
  rw [jobs, Keyed.get?_erase] at found
  split at found
  · contradiction
  · rename_i different
    exact ⟨Ne.symm different, found⟩

theorem IsSound.erase
    (sound : board.IsSound)
    {id : Digest}
    (jobs : next.jobs = board.jobs.erase id) :
    next.IsSound := by
  have kept {other : Digest} {worker : WorkerId} (has : next.HasWorker other worker) :
      board.HasWorker other worker := by
    obtain ⟨tracked, found, inTracked⟩ := has
    exact ⟨tracked, (get?_of_erased jobs found).2, inTracked⟩
  refine ⟨?_, ?_, ?_, ?_⟩
  · rw [jobs]
    exact Keyed.nodup_keys_erase sound.distinct id
  · exact fun other tracked found => sound.staffed other tracked (get?_of_erased jobs found).2
  · exact fun other tracked found => sound.once other tracked (get?_of_erased jobs found).2
  · exact fun first second worker onFirst onSecond =>
      sound.exclusive first second worker (kept onFirst) (kept onSecond)

/-! ### The order of the jobs and of their workers -/

/-- In another order no job is missing, and each has its workers in another
order. -/
theorem get?_rearrange
    (distinct : board.jobs.keys.Nodup)
    (arrangement : Arrangement)
    (id : Digest) :
    (board.rearrange arrangement).jobs.get? id = (board.jobs.get? id).map fun tracked =>
      { tracked with workers := tracked.workers.arrange (arrangement.workers id) } := by
  unfold rearrange
  dsimp only
  rw [Keyed.get?_arrange, Keyed.get?_mapValues]
  rwa [Keyed.keys_mapValues]

theorem job?_rearrange
    (distinct : board.jobs.keys.Nodup)
    (arrangement : Arrangement)
    (id : Digest) :
    (board.rearrange arrangement).job? id = board.job? id := by
  unfold job?
  rw [get?_rearrange distinct, Option.map_map]
  rfl

@[simp] theorem limits_rearrange
    (board : WorkBoard α)
    (arrangement : Arrangement) :
    (board.rearrange arrangement).limits = board.limits :=
  rfl

@[simp] theorem difficulty_rearrange
    (board : WorkBoard α)
    (arrangement : Arrangement) :
    (board.rearrange arrangement).difficulty = board.difficulty :=
  rfl

@[simp] theorem size_rearrange
    (board : WorkBoard α)
    (arrangement : Arrangement) :
    (board.rearrange arrangement).jobs.size = board.jobs.size :=
  (Keyed.perm_entries_arrange _ _).length_eq.trans (List.length_map _)

/-- What does not depend on the workers of a job is there as before. -/
theorem perm_values_rearrange
    {β : Type}
    {view : TrackedJob α → β}
    (board : WorkBoard α)
    (arrangement : Arrangement)
    (kept : ∀ tracked workers, view { tracked with workers := workers } = view tracked) :
    ((board.rearrange arrangement).jobs.values.map view).Perm (board.jobs.values.map view) := by
  unfold rearrange Keyed.values
  refine (((Keyed.perm_entries_arrange _ arrangement.jobs).map Prod.snd).map view).trans ?_
  unfold Keyed.mapValues
  rw [List.map_map, List.map_map, List.map_map]
  exact List.Perm.of_eq (List.map_congr_left fun entry _ => kept _ _)

/-- Every order of the jobs, and every order of the workers of each, can be had. -/
theorem IsSound.keys_rearrange
    (sound : board.IsSound)
    {arrangement : Arrangement}
    (jobs : arrangement.jobs.Perm board.jobs.keys)
    (workers : ∀ id tracked, board.jobs.get? id = some tracked →
      (arrangement.workers id).Perm tracked.workers.keys) :
    (board.rearrange arrangement).jobs.keys = arrangement.jobs ∧
      ∀ id tracked, (board.rearrange arrangement).jobs.get? id = some tracked →
        tracked.workers.keys = arrangement.workers id := by
  refine ⟨Keyed.keys_arrange ?_ ?_, fun id tracked found => ?_⟩
  · rw [Keyed.keys_mapValues]
    exact sound.distinct
  · rw [Keyed.keys_mapValues]
    exact jobs
  · rw [get?_rearrange sound.distinct, Option.map_eq_some_iff] at found
    obtain ⟨earlier, before, rfl⟩ := found
    exact Keyed.keys_arrange (sound.once id earlier before) (workers id earlier before)

theorem nodup_keys_rearrange
    (distinct : board.jobs.keys.Nodup)
    (arrangement : Arrangement) :
    (board.rearrange arrangement).jobs.keys.Nodup := by
  apply Keyed.nodup_keys_arrange
  rwa [Keyed.keys_mapValues]

theorem IsSound.hasWorker_rearrange_iff
    (sound : board.IsSound)
    (arrangement : Arrangement)
    (id : Digest)
    (worker : WorkerId) :
    (board.rearrange arrangement).HasWorker id worker ↔ board.HasWorker id worker := by
  unfold HasWorker
  rw [get?_rearrange sound.distinct]
  cases found : board.jobs.get? id with
  | none => simp
  | some tracked =>
      have once := sound.once id tracked found
      simp [Keyed.contains, Keyed.get?_arrange once]

/-- The order does not matter to who is on the board. -/
theorem IsSound.rearrange
    (sound : board.IsSound)
    (arrangement : Arrangement) :
    (board.rearrange arrangement).IsSound where
  distinct := nodup_keys_rearrange sound.distinct arrangement
  staffed := by
    intro id tracked found
    rw [get?_rearrange sound.distinct, Option.map_eq_some_iff] at found
    obtain ⟨earlier, before, rfl⟩ := found
    intro empty
    have perm := earlier.workers.perm_entries_arrange (arrangement.workers id)
    dsimp only at empty
    rw [empty] at perm
    exact sound.staffed id earlier before perm.nil_eq.symm
  once := by
    intro id tracked found
    rw [get?_rearrange sound.distinct, Option.map_eq_some_iff] at found
    obtain ⟨earlier, before, rfl⟩ := found
    exact Keyed.nodup_keys_arrange (sound.once id earlier before) _
  exclusive := by
    intro id other worker onFirst onSecond
    rw [sound.hasWorker_rearrange_iff] at onFirst onSecond
    exact sound.exclusive id other worker onFirst onSecond

end Invariant

variable {α : Type} [Scalar α] {board : WorkBoard α}

theorem isSound_empty
    (limits : BoardLimits α) :
    (empty limits).IsSound where
  distinct := List.nodup_nil
  staffed := by simp [empty]
  once := by simp [empty]
  exclusive := by simp [empty, HasWorker]

section Assignment

/-- A worker who may join a job is entered with it. -/
theorem join_cases
    (board : WorkBoard α)
    (id : Digest)
    (tracked : TrackedJob α)
    (worker : Waiting α) :
    (∀ expected, (board.join id tracked worker).1 ≠ .accepted expected) ∧
        (board.join id tracked worker).2 = board ∨
      (∃ expected, (board.join id tracked worker).1 = .accepted expected) ∧
        (board.join id tracked worker).2.jobs = board.jobs.put id
          { tracked with workers := tracked.workers.put worker.worker worker.hashpower } := by
  unfold join
  dsimp only
  split
  · exact Or.inl ⟨by simp, rfl⟩
  · exact Or.inr ⟨⟨_, rfl⟩, rfl⟩

/-- A worker who may begin a job is entered as its only one, and may do so only
where there is room, the job is not too difficult and not too fast. -/
theorem begin_cases
    (board : WorkBoard α)
    (id : Digest)
    (job : Job)
    (worker : Waiting α) :
    (∀ expected, (board.begin id job worker).1 ≠ .accepted expected) ∧
        (board.begin id job worker).2 = board ∨
      ∃ difficulty, job.puzzle.target.difficulty = .ok difficulty ∧
        ¬board.limits.maxJobs ≤ board.jobs.size ∧
        ¬board.limits.maxDifficulty < board.difficulty + difficulty.view α ∧
        ¬expectedTime (difficulty.view α) worker.hashpower < board.limits.minTime ∧
        board.begin id job worker =
          (.accepted (expectedTime (difficulty.view α) worker.hashpower),
            { board with
              jobs := board.jobs.put id
                ⟨job, difficulty.view α, Keyed.empty.put worker.worker worker.hashpower⟩
              difficulty := board.difficulty + difficulty.view α }) := by
  unfold begin
  split
  · exact Or.inl ⟨by simp, rfl⟩
  · rename_i room
    cases job.puzzle.target.difficulty with
    | error failure => exact Or.inl ⟨by simp, rfl⟩
    | ok difficulty =>
        dsimp only
        split
        · exact Or.inl ⟨by simp, rfl⟩
        · rename_i light
          split
          · exact Or.inl ⟨by simp, rfl⟩
          · rename_i slow
            exact Or.inr ⟨difficulty, rfl, room, light, slow, rfl⟩

/-- A worker who is let in is entered with the job, which stays as it is if it
is in progress. -/
theorem assign_cases
    (board : WorkBoard α)
    (job : Job)
    (worker : Waiting α) :
    (∀ expected, (board.assign job worker).1 ≠ .accepted expected) ∧
        (board.assign job worker).2 = board ∨
      (∃ expected, (board.assign job worker).1 = .accepted expected) ∧
        ∃ tracked : TrackedJob α,
          (board.assign job worker).2.jobs = board.jobs.put job.id tracked ∧
          tracked.job = (board.job? job.id).getD job ∧
          tracked.workers =
            (((board.jobs.get? job.id).map TrackedJob.workers).getD Keyed.empty).put
              worker.worker worker.hashpower := by
  unfold assign job?
  dsimp only
  cases board.jobs.get? job.id with
  | some tracked =>
      rcases board.join_cases job.id tracked worker with refused | ⟨accepted, jobs⟩
      · exact Or.inl refused
      · exact Or.inr ⟨accepted, _, jobs, rfl, rfl⟩
  | none =>
      rcases board.begin_cases job.id job worker with refused | ⟨_, _, _, _, _, begun⟩
      · exact Or.inl refused
      · dsimp only
        rw [begun]
        exact Or.inr ⟨⟨_, rfl⟩, _, rfl, rfl, rfl⟩

/-- A worker who is on no job may be put on any. -/
theorem IsSound.assign
    (sound : board.IsSound)
    (job : Job)
    {worker : Waiting α}
    (free : ∀ id, ¬board.HasWorker id worker.worker) :
    (board.assign job worker).2.IsSound := by
  rcases board.assign_cases job worker with ⟨_, refused⟩ | ⟨_, tracked, jobs, _, workers⟩
  · rw [refused]
    exact sound
  · apply sound.put jobs
    · rw [workers]
      exact entries_put_ne_nil _ _ _
    · rw [workers]
      apply Keyed.nodup_keys_put
      cases found : board.jobs.get? job.id with
      | none => exact List.nodup_nil
      | some earlier => exact sound.once job.id earlier found
    · intro other present inTracked onOther
      rw [workers, Keyed.contains_put, Bool.or_eq_true, decide_eq_true_eq] at inTracked
      rcases inTracked with rfl | before
      · exact absurd onOther (free other)
      · cases found : board.jobs.get? job.id with
        | none =>
            rw [found] at before
            contradiction
        | some earlier =>
            rw [found] at before
            exact sound.exclusive other job.id present onOther ⟨earlier, found, before⟩

/-- Only the assigned job is new on the board. -/
theorem job?_of_assign
    {job found : Job}
    {worker : Waiting α}
    {id : Digest}
    (tracked : (board.assign job worker).2.job? id = some found) :
    board.job? id = some found ∨ id = job.id ∧ found = job := by
  rcases board.assign_cases job worker with ⟨_, refused⟩ | ⟨_, entry, jobs, entryJob, _⟩
  · rw [refused] at tracked
    exact Or.inl tracked
  · rw [job?, jobs, Keyed.get?_put] at tracked
    split at tracked
    · rename_i same
      subst same
      rw [Option.map_some, entryJob] at tracked
      cases before : board.job? job.id with
      | none =>
          rw [before] at tracked
          exact Or.inr ⟨rfl, (Option.some.inj tracked).symm⟩
      | some earlier =>
          rw [before] at tracked
          exact Or.inl tracked
    · exact Or.inl tracked

end Assignment

section Release

/-- A worker that is released was on no job, or leaves the job it was on, which
comes off the board if nobody else is on it. -/
theorem release_cases
    (sound : board.IsSound)
    (worker : WorkerId) :
    (∀ id, ¬board.HasWorker id worker) ∧ (board.release worker).2 = board ∨
      ∃ id tracked, board.jobs.get? id = some tracked ∧
        tracked.workers.contains worker = true ∧
        ((tracked.workers.erase worker).entries = [] ∧
            (board.release worker).2.jobs = board.jobs.erase id ∨
          (tracked.workers.erase worker).entries ≠ [] ∧
            (board.release worker).2.jobs =
              board.jobs.put id { tracked with workers := tracked.workers.erase worker }) := by
  unfold release
  cases found : board.jobs.entries.find? _ with
  | none =>
      refine Or.inl ⟨?_, rfl⟩
      rintro id ⟨tracked, atId, present⟩
      have inBoard := (Keyed.get?_eq_some_iff_mem sound.distinct id tracked).mp atId
      exact List.find?_eq_none.mp found (id, tracked) inBoard present
  | some entry =>
      obtain ⟨id, tracked⟩ := entry
      have inBoard := List.mem_of_find?_eq_some found
      have present := List.find?_some found
      refine Or.inr ⟨id, tracked,
        (Keyed.get?_eq_some_iff_mem sound.distinct id tracked).mpr inBoard, present, ?_⟩
      dsimp only
      split
      · rename_i empty
        exact Or.inl ⟨List.isEmpty_iff.mp empty, rfl⟩
      · rename_i staffed
        exact Or.inr ⟨fun empty => staffed (List.isEmpty_iff.mpr empty), rfl⟩

theorem IsSound.release
    (sound : board.IsSound)
    (worker : WorkerId) :
    (board.release worker).2.IsSound := by
  rcases release_cases sound worker with
    ⟨_, same⟩ | ⟨id, tracked, found, _, ⟨_, jobs⟩ | ⟨staffed, jobs⟩⟩
  · rw [same]
    exact sound
  · exact sound.erase jobs
  · apply sound.put jobs staffed (Keyed.nodup_keys_erase (sound.once id tracked found) worker)
    intro other present inTracked onOther
    rw [Keyed.contains_erase, Bool.and_eq_true] at inTracked
    exact sound.exclusive other id present onOther ⟨tracked, found, inTracked.2⟩

/-- A worker that was released is on no job. -/
theorem IsSound.not_hasWorker_release
    (sound : board.IsSound)
    (worker : WorkerId)
    (id : Digest) :
    ¬(board.release worker).2.HasWorker id worker := by
  rintro ⟨after, found, present⟩
  rcases release_cases sound worker with
    ⟨free, same⟩ | ⟨left, tracked, atLeft, wasThere, ⟨_, jobs⟩ | ⟨_, jobs⟩⟩
  · rw [same] at found
    exact free id ⟨after, found, present⟩
  · obtain ⟨different, before⟩ := get?_of_erased jobs found
    exact different (sound.exclusive id left worker ⟨after, before, present⟩
      ⟨tracked, atLeft, wasThere⟩)
  · rw [jobs, Keyed.get?_put] at found
    split at found
    · obtain rfl := Option.some.inj found
      rw [Keyed.contains_erase] at present
      simp at present
    · rename_i different
      exact different (sound.exclusive left id worker ⟨tracked, atLeft, wasThere⟩
        ⟨after, found, present⟩)

/-- Releasing a worker changes no job that stays on the board. -/
theorem IsSound.job?_of_release
    (sound : board.IsSound)
    {worker : WorkerId}
    {id : Digest}
    {job : Job}
    (tracked : (board.release worker).2.job? id = some job) :
    board.job? id = some job := by
  rcases release_cases sound worker with
    ⟨_, same⟩ | ⟨left, before, atLeft, _, ⟨_, jobs⟩ | ⟨_, jobs⟩⟩
  · rw [same] at tracked
    exact tracked
  · obtain ⟨found, atId, isJob⟩ := (job?_eq_some_iff _ id job).mp tracked
    exact (job?_eq_some_iff _ id job).mpr ⟨found, (get?_of_erased jobs atId).2, isJob⟩
  · rw [job?, jobs, Keyed.get?_put] at tracked
    split at tracked
    · rename_i same
      subst same
      rw [job?, atLeft]
      exact tracked
    · exact tracked

end Release

section Completion

/-- A job that is completed was on the board, was solved if a solution is
given, and comes off the board with all its workers. -/
theorem complete_cases
    {id : Digest}
    {solution : Option Solution}
    {completion : Completion α}
    {next : WorkBoard α}
    (completed : board.complete id solution = .ok (completion, next)) :
    ∃ tracked, board.jobs.get? id = some tracked ∧
      completion = ⟨tracked.waiting, solution⟩ ∧
      (∀ found ∈ solution, (WorkProof.mk tracked.job.puzzle found).isValid = true) ∧
      next.jobs = board.jobs.erase id := by
  unfold complete at completed
  cases found : board.jobs.get? id with
  | none =>
      rw [found] at completed
      contradiction
  | some tracked =>
      rw [found] at completed
      dsimp only at completed
      split at completed
      · rename_i valid
        obtain ⟨rfl, rfl⟩ := Prod.mk.inj (Except.ok.inj completed)
        exact ⟨tracked, rfl, rfl, fun solution isSolution => by
          rw [Option.mem_def] at isSolution
          simpa [isSolution] using valid, rfl⟩
      · contradiction

/-- Completing a job leaves the others as they are. -/
theorem job?_of_complete
    {id other : Digest}
    {solution : Option Solution}
    {completion : Completion α}
    {next : WorkBoard α}
    {job : Job}
    (completed : board.complete id solution = .ok (completion, next))
    (tracked : next.job? other = some job) :
    other ≠ id ∧ board.job? other = some job := by
  obtain ⟨_, _, _, _, jobs⟩ := complete_cases completed
  obtain ⟨found, atOther, isJob⟩ := (job?_eq_some_iff _ other job).mp tracked
  obtain ⟨different, before⟩ := get?_of_erased jobs atOther
  exact ⟨different, (job?_eq_some_iff _ other job).mpr ⟨found, before, isJob⟩⟩

theorem IsSound.complete
    (sound : board.IsSound)
    {id : Digest}
    {solution : Option Solution}
    {completion : Completion α}
    {next : WorkBoard α}
    (completed : board.complete id solution = .ok (completion, next)) :
    next.IsSound := by
  obtain ⟨_, _, _, _, jobs⟩ := complete_cases completed
  exact sound.erase jobs

end Completion

end WorkBoard
end WorkMarket
