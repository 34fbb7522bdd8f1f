import WorkMarket.Proofs.Market.BoardBounds

/-!
# The time that is reported

Who is let in on a job is told how long it should take.  For a worker who is new on
the job that is the time at the hashpower stored afterwards.  A worker who is on
the job already has its place stored once but is judged by what it brought before
and what it brings now together, so that the time comes out too short.
-/

namespace WorkMarket

namespace Duration

theorem le_antisymm
    {left right : Duration}
    (le : left ≤ right)
    (ge : right ≤ left) :
    left = right := by
  obtain ⟨nanoseconds, _⟩ := left
  obtain ⟨otherNanoseconds, _⟩ := right
  obtain rfl : nanoseconds = otherNanoseconds := Nat.le_antisymm le ge
  rfl

end Duration

namespace TrackedJob

/-- The job with a worker in its place. -/
def taking
    {α : Type}
    (tracked : TrackedJob α)
    (worker : Waiting α) :
    TrackedJob α :=
  { tracked with workers := tracked.workers.put worker.worker worker.hashpower }

/-- What a worker brings to the job already. -/
def share
    (tracked : TrackedJob Rat)
    (worker : WorkerId) :
    Rat :=
  (tracked.workers.get? worker).getD 0

/-- The time that the job should take with a worker in its place. -/
def timeWith
    (tracked : TrackedJob Rat)
    (worker : Waiting Rat) :
    Duration :=
  expectedTime tracked.difficulty (tracked.taking worker).workers.values.sum

/-- The time that it should take if what the worker brings already came on top. -/
def judgedTime
    (tracked : TrackedJob Rat)
    (worker : Waiting Rat) :
    Duration :=
  expectedTime tracked.difficulty
    ((tracked.taking worker).workers.values.sum + tracked.share worker.worker)

/-- What the workers bring and what one of them asks to bring is what is stored
afterwards and that worker's former share. -/
theorem hashpower_add
    (tracked : TrackedJob Rat)
    (worker : Waiting Rat) :
    tracked.hashpower + worker.hashpower =
      (tracked.taking worker).workers.values.sum + tracked.share worker.worker := by
  unfold hashpower share taking
  rw [scalarSum_eq]
  cases found : tracked.workers.get? worker.worker with
  | none =>
      have total := Keyed.sum_put_of_none id found worker.hashpower
      simp only [List.map_id, id_eq] at total
      rw [total, Option.getD_none, add_zero]
  | some earlier =>
      have total := Keyed.sum_put_of_some id found worker.hashpower
      simp only [List.map_id, id_eq] at total
      rw [Option.getD_some, add_comm, ← total, add_comm]

namespace IsAdmitted

variable {tracked : TrackedJob Rat} {minTime : Duration} {id : Digest}

theorem share_nonneg
    (admitted : tracked.IsAdmitted minTime id)
    (worker : WorkerId) :
    0 ≤ tracked.share worker := by
  unfold share
  cases found : tracked.workers.get? worker with
  | none => exact le_refl 0
  | some earlier =>
      obtain ⟨entry, isEntry, rfl⟩ := Option.map_eq_some_iff.mp found
      exact admitted.hashpower_nonneg _ (List.mem_map_of_mem (List.mem_of_find?_eq_some isEntry))

/-- Counting a share twice makes no job slower. -/
theorem judgedTime_le
    (admitted : tracked.IsAdmitted minTime id)
    (worker : Waiting Rat) :
    tracked.judgedTime worker ≤ tracked.timeWith worker :=
  expectedTime_antitone admitted.difficulty_pos.le
    (le_add_of_nonneg_right (admitted.share_nonneg worker.worker))

end IsAdmitted
end TrackedJob

namespace WorkBoard

section Answers

variable {board : WorkBoard Rat} {job : Job} {tracked : TrackedJob Rat}

/-- Whether what a worker is told fits what the board stores.  Who is let in is
told the time that the job should take at the hashpower of all its workers, and a
job in progress is too fast exactly if it would be so with the worker in its
place. -/
structure ReportsTime
    (board : WorkBoard Rat)
    (job : Job)
    (worker : Waiting Rat) : Prop where
  expected : ∀ expected, (board.assign job worker).1 = .accepted expected →
    ∃ tracked, (board.assign job worker).2.jobs.get? job.id = some tracked ∧
      (∃ difficulty, tracked.job.puzzle.target.difficulty = .ok difficulty ∧
        tracked.difficulty = difficulty.view Rat) ∧
      expected = expectedTime tracked.difficulty tracked.workers.values.sum
  tooFast_iff : ∀ tracked, board.jobs.get? job.id = some tracked →
    ((board.assign job worker).1 = .tooFast ↔
      tracked.timeWith worker < board.limits.minTime)

/-- Whether a worker asks for the place that it has on a job, which is not too fast
with the worker in its place, and its former share counted once more makes the time
shorter. -/
def CountsTwice
    (board : WorkBoard Rat)
    (job : Job)
    (worker : Waiting Rat) : Prop :=
  ∃ tracked, board.jobs.get? job.id = some tracked ∧
    board.limits.minTime ≤ tracked.timeWith worker ∧
    tracked.judgedTime worker < tracked.timeWith worker

theorem countsTwice_iff
    (found : board.jobs.get? job.id = some tracked)
    (worker : Waiting Rat) :
    board.CountsTwice job worker ↔
      board.limits.minTime ≤ tracked.timeWith worker ∧
        tracked.judgedTime worker < tracked.timeWith worker := by
  simp only [CountsTwice, found, Option.some.injEq, exists_eq_left']

/-- Whoever has no share in the job is counted once. -/
theorem not_countsTwice_of_share_eq_zero
    {worker : Waiting Rat}
    (new : ∀ tracked, board.jobs.get? job.id = some tracked →
      tracked.share worker.worker = 0) :
    ¬board.CountsTwice job worker := by
  rintro ⟨tracked, found, _, shorter⟩
  rw [TrackedJob.judgedTime, new tracked found, add_zero] at shorter
  exact absurd shorter (Nat.lt_irrefl _)

/-- Who begins a job is told the time that it takes alone, and stored alone. -/
theorem reportsTime_of_new
    (absent : board.jobs.get? job.id = none)
    (worker : Waiting Rat) :
    board.ReportsTime job worker := by
  refine ⟨fun expected accepted => ?_, fun tracked found => ?_⟩
  · have begun : board.assign job worker = board.begin job.id job worker := by
      simp only [assign, absent]
    rw [begun] at accepted ⊢
    rcases board.begin_cases job.id job worker with
      ⟨refused, _⟩ | ⟨difficulty, priced, _, _, _, entered⟩
    · exact absurd accepted (refused expected)
    · rw [entered] at accepted ⊢
      refine ⟨⟨job, difficulty.view Rat, Keyed.empty.put worker.worker worker.hashpower⟩,
        ?_, ⟨difficulty, priced, rfl⟩, ?_⟩
      · rw [Keyed.get?_put, if_pos rfl]
      · rw [Keyed.sum_values_single]
        exact (Admission.accepted.inj accepted).symm
  · rw [absent] at found
    contradiction

/-- Who asks for a place on a job in progress is judged, and told, by its former
share on top. -/
theorem assign_of_tracked
    (found : board.jobs.get? job.id = some tracked)
    (worker : Waiting Rat) :
    board.assign job worker =
      if tracked.judgedTime worker < board.limits.minTime then (.tooFast, board)
      else
        (.accepted (tracked.judgedTime worker),
          { board with jobs := board.jobs.put job.id (tracked.taking worker) }) := by
  rw [TrackedJob.judgedTime, ← tracked.hashpower_add]
  unfold assign
  simp only [found]
  rfl

/-- A refusal fits exactly if the job is too fast with the worker in its place. -/
theorem reportsTime_iff_of_refused
    {worker : Waiting Rat}
    (found : board.jobs.get? job.id = some tracked)
    (tooFast : tracked.judgedTime worker < board.limits.minTime) :
    board.ReportsTime job worker ↔ tracked.timeWith worker < board.limits.minTime := by
  have answer := assign_of_tracked found worker
  rw [if_pos tooFast] at answer
  constructor
  · intro reports
    exact (reports.tooFast_iff tracked found).mp (by rw [answer])
  · intro fast
    refine ⟨fun expected accepted => ?_, fun other atOther => ?_⟩
    · rw [answer] at accepted
      contradiction
    · obtain rfl := Option.some.inj (found.symm.trans atOther)
      rw [answer]
      exact iff_of_true rfl fast

/-- An admission fits exactly if the former share makes no difference. -/
theorem reportsTime_iff_of_admitted
    {worker : Waiting Rat}
    (found : board.jobs.get? job.id = some tracked)
    (admitted : tracked.IsAdmitted board.limits.minTime job.id)
    (slow : ¬tracked.judgedTime worker < board.limits.minTime) :
    board.ReportsTime job worker ↔ tracked.judgedTime worker = tracked.timeWith worker := by
  have answer := assign_of_tracked found worker
  rw [if_neg slow] at answer
  constructor
  · intro reports
    obtain ⟨stored, atId, _, told⟩ := reports.expected _ (by rw [answer])
    rw [answer, Keyed.get?_put, if_pos rfl] at atId
    obtain rfl := Option.some.inj atId
    exact told
  · intro same
    refine ⟨fun expected accepted => ?_, fun other atOther => ?_⟩
    · rw [answer] at accepted ⊢
      refine ⟨tracked.taking worker, ?_, admitted.priced, ?_⟩
      · rw [Keyed.get?_put, if_pos rfl]
      · exact (Admission.accepted.inj accepted).symm.trans same
    · obtain rfl := Option.some.inj (found.symm.trans atOther)
      rw [answer, ← same]
      exact iff_of_false nofun slow

/-- Where jobs are admitted, what is told fits what is stored unless a worker is
counted twice. -/
theorem reportsTime_iff
    (admitted : ∀ id tracked, board.jobs.get? id = some tracked →
      tracked.IsAdmitted board.limits.minTime id)
    (job : Job)
    (worker : Waiting Rat) :
    board.ReportsTime job worker ↔ ¬board.CountsTwice job worker := by
  cases found : board.jobs.get? job.id with
  | none =>
      refine iff_of_true (reportsTime_of_new found worker) ?_
      rintro ⟨tracked, atId, _⟩
      rw [found] at atId
      contradiction
  | some tracked =>
      have shorter := (admitted job.id tracked found).judgedTime_le worker
      rw [countsTwice_iff found]
      by_cases tooFast : tracked.judgedTime worker < board.limits.minTime
      · rw [reportsTime_iff_of_refused found tooFast]
        constructor
        · intro fast twice
          exact absurd twice.1 (Nat.not_le.mpr fast)
        · intro once
          exact Nat.not_le.mp fun slow => once ⟨slow, Nat.lt_of_lt_of_le tooFast slow⟩
      · rw [reportsTime_iff_of_admitted found (admitted job.id tracked found) tooFast]
        constructor
        · intro same twice
          exact absurd twice.2 (same ▸ Nat.lt_irrefl _)
        · intro once
          refine Duration.le_antisymm shorter (Nat.not_lt.mp fun less => once ⟨?_, less⟩)
          exact Nat.le_trans (Nat.not_lt.mp tooFast) shorter

end Answers

section Histories

/-- Whatever workers did that bring no negative hashpower, what the next one is
told fits what is stored exactly if it is not counted twice. -/
theorem reportsTime_iff_not_countsTwice
    (limits : BoardLimits Rat)
    (history : List (Operation Rat))
    (brings : ∀ job worker, .assign job worker ∈ history → 0 ≤ worker.hashpower)
    (job : Job)
    (worker : Waiting Rat) :
    ((empty limits).run history).ReportsTime job worker ↔
      ¬((empty limits).run history).CountsTwice job worker := by
  have holds := holdsAdmitted_run limits brings
  apply reportsTime_iff
  rw [holds.limits_eq]
  exact holds.admitted

/-- A job of difficulty one, or a little more. -/
def plainJob : Job :=
  Job.ofScript (.bounty 0 (.filled 32 0x11) ⟨0x1d00ffff⟩ [] 1 []) (.filled 20 9)

/-- A worker who alone takes some two seconds for it. -/
def onlyWorker : Waiting Rat :=
  ⟨⟨1⟩, 1 / 2⟩

/-- Another who joins it has no share in it, and is told the time of both. -/
theorem reportsTime_iff_not_countsTwice_joining :
    (∀ job worker, .assign job worker ∈ [Operation.assign plainJob onlyWorker] →
        0 ≤ worker.hashpower) ∧
      ¬((empty narrow).run [.assign plainJob onlyWorker]).CountsTwice plainJob ⟨⟨2⟩, 1 / 4⟩ ∧
      ((empty narrow).run [.assign plainJob onlyWorker]).ReportsTime plainJob ⟨⟨2⟩, 1 / 4⟩ := by
  have brings : ∀ job worker, .assign job worker ∈ [Operation.assign plainJob onlyWorker] →
      0 ≤ worker.hashpower := by
    intro job worker present
    obtain ⟨-, rfl⟩ := Operation.assign.inj (List.mem_singleton.mp present)
    decide +kernel
  have share : (((empty narrow).run [.assign plainJob onlyWorker]).jobs.get? plainJob.id).map
      (fun tracked => tracked.share ⟨2⟩) = some 0 := by
    decide +kernel
  have once : ¬((empty narrow).run [.assign plainJob onlyWorker]).CountsTwice plainJob
      ⟨⟨2⟩, 1 / 4⟩ := by
    refine not_countsTwice_of_share_eq_zero fun tracked found => ?_
    rw [found] at share
    exact Option.some.inj share
  exact ⟨brings, once,
    (reportsTime_iff_not_countsTwice narrow _ brings plainJob ⟨⟨2⟩, 1 / 4⟩).mpr once⟩

/-- Who asks for its place again is told a second, though what is stored takes
two. -/
theorem not_reportsTime_askingAgain :
    0 ≤ onlyWorker.hashpower ∧
      ¬((empty narrow).run [.assign plainJob onlyWorker]).ReportsTime plainJob onlyWorker := by
  refine ⟨by decide +kernel, fun reports => ?_⟩
  have told : (((empty narrow).run [.assign plainJob onlyWorker]).assign plainJob onlyWorker).1 =
      .accepted ⟨1000015259, by decide⟩ := by
    decide +kernel
  have stored : ((((empty narrow).run [.assign plainJob onlyWorker]).assign plainJob
      onlyWorker).2.jobs.get? plainJob.id).map
        (fun tracked => expectedTime tracked.difficulty tracked.workers.values.sum) =
      some ⟨2000030518, by decide⟩ := by
    decide +kernel
  obtain ⟨tracked, atId, _, same⟩ := reports.expected _ told
  rw [atId, Option.map_some, ← same] at stored
  exact absurd stored (by decide)

end Histories

end WorkBoard
end WorkMarket
