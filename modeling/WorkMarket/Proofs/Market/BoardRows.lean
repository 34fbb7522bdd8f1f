import WorkMarket.Proofs.Market.BoardWorkers

/-!
# The workers of each job

What a change of the board does to the workers of each job, in the order in
which they came: who is released leaves its job, who is admitted comes last on
its job, and completing a job frees just its workers.
-/

namespace WorkMarket
namespace WorkBoard

section Rows

variable {α : Type} {board next : WorkBoard α} {id : Digest} {job : Job} {worker : Waiting α}

/-- No worker stands twice on a job. -/
theorem IsSound.nodup_workers
    (sound : board.IsSound)
    (id : Digest) :
    ((board.workers id).map Waiting.worker).Nodup := by
  unfold workers
  cases found : board.jobs.get? id with
  | none => exact List.nodup_nil
  | some tracked =>
      have once := sound.once id tracked found
      rw [Option.map_some, Option.getD_some, TrackedJob.waiting, List.map_map]
      exact once

/-- Whether a board becomes another by a worker coming last on a job. -/
structure Admits
    (board : WorkBoard α)
    (id : Digest)
    (job : Job)
    (worker : Waiting α)
    (next : WorkBoard α) : Prop where
  tracked : next.job? id = some job
  kept : ∀ other earlier, board.job? other = some earlier → next.job? other = some earlier
  workers_eq : ∀ other,
    next.workers other = board.workers other ++ if id = other then [worker] else []

/-- One worker more is on the board. -/
theorem Admits.hasWorker_iff
    (admits : board.Admits id job worker next)
    (other : Digest)
    (another : WorkerId) :
    next.HasWorker other another ↔
      board.HasWorker other another ∨ id = other ∧ another = worker.worker := by
  rw [hasWorker_iff_mem_workers, hasWorker_iff_mem_workers, admits.workers_eq, List.map_append,
    List.mem_append]
  split
  · rename_i same
    simp [same]
  · rename_i different
    simp [different]

/-- A worker who is on no job comes last on the one that it is put on. -/
theorem admits_of_put
    (free : ∀ other, ¬board.HasWorker other worker.worker)
    {tracked : TrackedJob α}
    (jobs : next.jobs = board.jobs.put id tracked)
    (isJob : tracked.job = (board.job? id).getD job)
    (workers : tracked.workers =
      (((board.jobs.get? id).map TrackedJob.workers).getD Keyed.empty).put worker.worker
        worker.hashpower) :
    board.Admits id ((board.job? id).getD job) worker next := by
  have absent : (((board.jobs.get? id).map TrackedJob.workers).getD Keyed.empty).get?
      worker.worker = none := by
    cases found : board.jobs.get? id with
    | none => rfl
    | some earlier =>
        have unlisted : ¬earlier.workers.contains worker.worker = true :=
          fun present => free id ⟨earlier, found, present⟩
        simpa [Keyed.contains] using unlisted
  have row : tracked.waiting = board.workers id ++ [worker] := by
    unfold TrackedJob.waiting WorkBoard.workers
    rw [workers, Keyed.entries_put_of_get?_eq_none absent, List.map_append]
    cases board.jobs.get? id with
    | none => rfl
    | some earlier => rfl
  refine ⟨?_, ?_, ?_⟩
  · rw [← isJob, job?, jobs, Keyed.get?_put, if_pos rfl]
    rfl
  · intro other earlier before
    rw [job?, jobs, Keyed.get?_put]
    split
    · rename_i same
      rw [Option.map_some, isJob, same, before, Option.getD_some]
    · exact before
  · intro other
    by_cases same : id = other
    · subst same
      rw [if_pos rfl, ← row, WorkBoard.workers, jobs, Keyed.get?_put, if_pos rfl]
      rfl
    · rw [if_neg same, List.append_nil, WorkBoard.workers, WorkBoard.workers, jobs,
        Keyed.get?_put, if_neg same]

end Rows

variable {α : Type} [Scalar α] {board next : WorkBoard α} {id : Digest}

section Assignment

/-- A worker who is on no job is refused, or admitted to the job that is in
progress under the name, or else to the given one. -/
theorem assign_of_free
    (job : Job)
    {worker : Waiting α}
    (free : ∀ id, ¬board.HasWorker id worker.worker) :
    (∀ expected, (board.assign job worker).1 ≠ .accepted expected) ∨
      board.Admits job.id ((board.job? job.id).getD job) worker (board.assign job worker).2 :=
  (board.assign_cases job worker).imp And.left fun ⟨_, _, jobs, isJob, workers⟩ =>
    admits_of_put free jobs isJob workers

end Assignment

section Release

variable {worker : WorkerId}

/-- Releasing a worker who is on no job changes nothing. -/
theorem IsSound.release_of_free
    (sound : board.IsSound)
    (free : ∀ id, ¬board.HasWorker id worker) :
    (board.release worker).2 = board := by
  rcases release_cases sound worker with ⟨_, same⟩ | ⟨id, tracked, found, present, _⟩
  · exact same
  · exact absurd ⟨tracked, found, present⟩ (free id)

/-- All others stay on their jobs when a worker is released. -/
theorem IsSound.hasWorker_release
    (sound : board.IsSound)
    {another : WorkerId}
    (has : board.HasWorker id another)
    (different : another ≠ worker) :
    (board.release worker).2.HasWorker id another := by
  obtain ⟨tracked, found, present⟩ := has
  rcases release_cases sound worker with
    ⟨_, same⟩ | ⟨left, leftTracked, atLeft, _, ⟨empty, jobs⟩ | ⟨_, jobs⟩⟩
  · rw [same]
    exact ⟨tracked, found, present⟩
  · refine ⟨tracked, ?_, present⟩
    rw [jobs, Keyed.get?_erase, if_neg]
    · exact found
    · rintro rfl
      obtain rfl : tracked = leftTracked := Option.some.inj (found.symm.trans atLeft)
      have stays : (tracked.workers.erase worker).contains another = true := by
        rw [Keyed.contains_erase, present]
        simpa using Ne.symm different
      simp [Keyed.contains, Keyed.get?, empty] at stays
  · by_cases same : left = id
    · subst same
      obtain rfl : tracked = leftTracked := Option.some.inj (found.symm.trans atLeft)
      refine ⟨{ tracked with workers := tracked.workers.erase worker }, ?_, ?_⟩
      · rw [jobs, Keyed.get?_put, if_pos rfl]
      · rw [Keyed.contains_erase, present]
        simpa using Ne.symm different
    · refine ⟨tracked, ?_, present⟩
      rw [jobs, Keyed.get?_put, if_neg same]
      exact found

end Release

section Completion

variable {solution : Option Solution} {completion : Completion α}

/-- Completing a job frees its workers. -/
theorem workers_completion
    (completed : board.complete id solution = .ok (completion, next)) :
    completion.workers = board.workers id := by
  obtain ⟨tracked, found, rfl, _⟩ := complete_cases completed
  unfold workers
  rw [found]
  rfl

/-- The workers of all other jobs stay. -/
theorem workers_complete
    (completed : board.complete id solution = .ok (completion, next))
    (other : Digest) :
    next.workers other = if id = other then [] else board.workers other := by
  obtain ⟨_, _, _, _, jobs⟩ := complete_cases completed
  unfold workers
  rw [jobs, Keyed.get?_erase]
  split
  · rfl
  · rfl

/-- The other jobs stay. -/
theorem job?_complete
    (completed : board.complete id solution = .ok (completion, next))
    (other : Digest) :
    next.job? other = if id = other then none else board.job? other := by
  obtain ⟨_, _, _, _, jobs⟩ := complete_cases completed
  unfold job?
  rw [jobs, Keyed.get?_erase]
  split
  · rfl
  · rfl

theorem hasWorker_complete_iff
    (completed : board.complete id solution = .ok (completion, next))
    (other : Digest)
    (worker : WorkerId) :
    next.HasWorker other worker ↔ id ≠ other ∧ board.HasWorker other worker := by
  rw [hasWorker_iff_mem_workers, hasWorker_iff_mem_workers, workers_complete completed]
  split
  · rename_i same
    simp [same]
  · rename_i different
    simp [different]

/-- Who was on a completed job is on none. -/
theorem IsSound.free_of_complete
    (sound : board.IsSound)
    (completed : board.complete id solution = .ok (completion, next))
    {worker : WorkerId}
    (has : board.HasWorker id worker)
    (other : Digest) :
    ¬next.HasWorker other worker := by
  rw [hasWorker_complete_iff completed]
  rintro ⟨different, onOther⟩
  exact different (sound.exclusive id other worker has onOther)

/-- A job in progress can be completed with what solves its puzzle. -/
theorem exists_complete
    {job : Job}
    (tracked : board.job? id = some job)
    {found : Solution}
    (valid : (WorkProof.mk job.puzzle found).isValid = true) :
    ∃ completion next, board.complete id (some found) = .ok (completion, next) := by
  obtain ⟨entry, atId, rfl⟩ := (job?_eq_some_iff board id job).mp tracked
  unfold complete
  rw [atId]
  dsimp only
  rw [Option.all_some, if_pos valid]
  exact ⟨_, _, rfl⟩

end Completion

end WorkBoard
end WorkMarket
