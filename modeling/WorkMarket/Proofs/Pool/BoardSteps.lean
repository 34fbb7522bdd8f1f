import WorkMarket.Proofs.Pool.Operations

/-!
# What an operation does to the board

Whatever the books hold, the board stays sound.  A job that is on the board
after an operation was there before, under a name that was neither redeemed nor
completed, or is one that the books select.
-/

namespace WorkMarket

/-- A job that can be worked on and that the books select, with its name. -/
structure Books.Selects
    {α : Type}
    (books : Books α)
    (id : Digest)
    (job : Job) : Prop where
  valid : job.isValid = true
  id_eq : job.id = id
  selected : job = books.contracts.selected ∨ job = books.bounties.selected

namespace Pool

variable {α : Type} [Scalar α] {pool next : Pool α} {id other : Digest} {job : Job}

section Spending

variable {draw : α} {outpoint : Outpoint} {spender : Digest}

/-- Spending clears the board of what it redeems, and nobody leaves it
otherwise. -/
theorem spend_cases
    (pool : Pool α)
    (draw : α)
    (outpoint : Outpoint)
    (spender : Digest) :
    (∀ id, (pool.books.spend draw outpoint spender).1 = some id →
        pool.board.job? id = none) ∧
        pool.spend draw outpoint spender =
          ([], { pool with books := (pool.books.spend draw outpoint spender).2 }) ∨
      ∃ id completion board, (pool.books.spend draw outpoint spender).1 = some id ∧
        pool.board.complete id none = .ok (completion, board) ∧
        pool.spend draw outpoint spender =
          (completion.workers,
            { pool with
              books := (pool.books.spend draw outpoint spender).2
              board := board }) := by
  unfold spend
  cases pool.books.spend draw outpoint spender with
  | mk redeemed books =>
      cases redeemed with
      | none => exact Or.inl ⟨by simp, rfl⟩
      | some id =>
          dsimp only
          cases finished : pool.board.complete id none with
          | error failure =>
              refine Or.inl ⟨?_, rfl⟩
              rintro other ⟨⟩
              unfold WorkBoard.complete at finished
              unfold WorkBoard.job?
              cases found : pool.board.jobs.get? id with
              | none => rfl
              | some tracked =>
                  rw [found] at finished
                  simp at finished
          | ok completed => exact Or.inr ⟨id, completed.1, completed.2, rfl, finished, rfl⟩

theorem isSound_board_spend
    (sound : pool.board.IsSound)
    (draw : α)
    (outpoint : Outpoint)
    (spender : Digest) :
    (pool.spend draw outpoint spender).2.board.IsSound := by
  rcases pool.spend_cases draw outpoint spender with
    ⟨_, kept⟩ | ⟨_, _, _, _, completed, left⟩
  · rw [kept]
    exact sound
  · rw [left]
    exact sound.complete completed

/-- What stays on the board is not redeemed. -/
theorem tracked_of_spend
    (tracked : (pool.spend draw outpoint spender).2.board.job? id = some job) :
    pool.board.job? id = some job ∧ (pool.books.spend draw outpoint spender).1 ≠ some id := by
  rcases pool.spend_cases draw outpoint spender with
    ⟨untracked, kept⟩ | ⟨redeemed, completion, board, answer, completed, left⟩
  · rw [kept] at tracked
    refine ⟨tracked, fun redeemed => ?_⟩
    have absent := untracked id redeemed
    change pool.board.job? id = some job at tracked
    rw [absent] at tracked
    contradiction
  · rw [left] at tracked
    obtain ⟨different, before⟩ := WorkBoard.job?_of_complete completed tracked
    refine ⟨before, ?_⟩
    rw [answer]
    exact fun same => different (Option.some.inj same).symm

end Spending

section Assignment

variable {worker : Waiting α}

theorem isSound_board_assign
    (sound : pool.board.IsSound)
    (worker : Waiting α) :
    (pool.assign worker).2.board.IsSound := by
  have vacated := sound.release worker.worker
  obtain ⟨job, _, assigned⟩ := pool.assign_cases worker
  rw [assigned]
  rcases (pool.vacated worker.worker).place_cases job worker with same | ⟨_, _, placed⟩
  · rw [same]
    exact vacated
  · rw [placed]
    exact vacated.assign job (sound.not_hasWorker_release worker.worker)

/-- What a worker is put on is selected. -/
theorem tracked_of_assign
    (sound : pool.board.IsSound)
    (tracked : (pool.assign worker).2.board.job? id = some job) :
    pool.board.job? id = some job ∨ pool.books.Selects id job := by
  obtain ⟨chosen, selected, assigned⟩ := pool.assign_cases worker
  rw [assigned] at tracked
  rcases (pool.vacated worker.worker).place_cases chosen worker with same | ⟨valid, _, placed⟩
  · rw [same] at tracked
    exact Or.inl (sound.job?_of_release tracked)
  · rw [placed] at tracked
    rcases WorkBoard.job?_of_assign tracked with before | ⟨rfl, rfl⟩
    · exact Or.inl (sound.job?_of_release before)
    · exact Or.inr ⟨valid, rfl, selected⟩

theorem isSound_board_reassign
    (sound : pool.board.IsSound)
    (workers : List (Waiting α))
    (settlement : Settlement α) :
    (reassign workers settlement pool).2.board.IsSound := by
  induction workers generalizing settlement pool with
  | nil => exact sound
  | cons worker rest inductionHypothesis =>
      have assigned := isSound_board_assign sound worker
      unfold reassign
      cases answer : pool.assign worker with
      | mk found next =>
          rw [answer] at assigned
          cases found with
          | some assignment => exact inductionHypothesis assigned _
          | none => exact inductionHypothesis assigned _

/-- What the workers of a finished job are put on is selected. -/
theorem tracked_of_reassign
    (sound : pool.board.IsSound)
    {workers : List (Waiting α)}
    {settlement : Settlement α}
    (tracked : (reassign workers settlement pool).2.board.job? id = some job) :
    pool.board.job? id = some job ∨ pool.books.Selects id job := by
  induction workers generalizing settlement pool with
  | nil => exact Or.inl tracked
  | cons worker rest inductionHypothesis =>
      have books := pool.books_assign worker
      have assigned := isSound_board_assign sound worker
      have cases (after : (pool.assign worker).2.board.job? id = some job) :
          pool.board.job? id = some job ∨ pool.books.Selects id job :=
        tracked_of_assign sound after
      unfold reassign at tracked
      cases answer : pool.assign worker with
      | mk found next =>
          rw [answer] at tracked books assigned cases
          dsimp only at books cases
          have later : next.board.job? id = some job ∨ next.books.Selects id job := by
            cases found with
            | some assignment => exact inductionHypothesis assigned tracked
            | none => exact inductionHypothesis assigned tracked
          rw [books] at later
          exact later.elim cases Or.inr

end Assignment

section Completion

variable {draw : α} {solution : Option Solution} {settlement : Settlement α}

theorem isSound_board_complete
    (sound : pool.board.IsSound)
    (completed : pool.complete draw id solution = .ok (settlement, next)) :
    next.board.IsSound := by
  obtain ⟨finished, completion, board, _, left, equal⟩ := complete_cases completed
  have vacated : (pool.retired draw id finished solution board).board.IsSound :=
    sound.complete left
  have reassigned := isSound_board_reassign vacated completion.workers
    (pool.settlementOf id finished solution)
  rw [← equal] at reassigned
  exact reassigned

/-- What stays on the board is not completed, and what comes there is
selected. -/
theorem tracked_of_complete
    (sound : pool.board.IsSound)
    (completed : pool.complete draw id solution = .ok (settlement, next))
    (tracked : next.board.job? other = some job) :
    other ≠ id ∧ pool.board.job? other = some job ∨ next.books.Selects other job := by
  obtain ⟨finished, completion, board, _, left, equal⟩ := complete_cases completed
  have books := books_reassign completion.workers (pool.settlementOf id finished solution)
    (pool.retired draw id finished solution board)
  have vacated : (pool.retired draw id finished solution board).board.IsSound :=
    sound.complete left
  have cases (after : (reassign completion.workers (pool.settlementOf id finished solution)
      (pool.retired draw id finished solution board)).2.board.job? other = some job) :=
    tracked_of_reassign vacated after
  rw [← equal] at books cases
  dsimp only at books cases
  rw [← books] at cases
  exact (cases tracked).imp_left fun before => WorkBoard.job?_of_complete left before

end Completion

/-- In another order no job is new. -/
theorem tracked_of_rearrange
    (sound : pool.board.IsSound)
    {arrangement : Arrangement}
    (tracked : (pool.step (.rearrange arrangement)).board.job? id = some job) :
    pool.board.job? id = some job :=
  (WorkBoard.job?_rearrange sound.distinct arrangement id).symm.trans tracked

/-- Every operation keeps the board sound. -/
theorem isSound_board_step
    (sound : pool.board.IsSound)
    (operation : Operation α) :
    (pool.step operation).board.IsSound := by
  cases operation with
  | pay => exact sound
  | spend draw outpoint spender => exact isSound_board_spend sound draw outpoint spender
  | offer now job secret expiresAt =>
      obtain ⟨_, stepped⟩ := pool.step_offer now job secret expiresAt
      rw [stepped]
      exact sound
  | assign worker => exact isSound_board_assign sound worker
  | release worker => exact sound.release worker
  | complete draw id solution =>
      rcases pool.step_complete_cases draw id solution with
        refused | ⟨_, _, completed, stepped⟩
      · rw [refused]
        exact sound
      · rw [stepped]
        exact isSound_board_complete sound completed
  | rearrange arrangement => exact sound.rearrange arrangement

end Pool
end WorkMarket
