import WorkMarket.Proofs.Pool.Operations
import WorkMarket.Proofs.Pow.NonceSearch

/-!
# Refused submissions

To finish a job changes the board, a queue and the sales, and it may be refused on
the way.  `submit` makes the changes in place, one after the other, so that what was
changed before a refusal would stay changed.  It answers and leaves behind what
`complete` does: whatever refuses a submission comes before the first change.
-/

namespace WorkMarket

/-- What an operation answers and leaves behind if a refusal changes nothing. -/
def keepIfRefused
    {σ β : Type}
    (before : σ) :
    Except Failure (β × σ) → EStateM.Result Failure σ β
  | .ok (answer, after) => .ok answer after
  | .error failure => .error failure before

theorem keepIfRefused_eq_error_iff
    {σ β : Type}
    {before after : σ}
    {answered : Except Failure (β × σ)}
    {failure : Failure} :
    keepIfRefused before answered = .error failure after ↔
      answered = .error failure ∧ after = before := by
  cases answered with
  | ok answer => simp [keepIfRefused]
  | error cause => simp [keepIfRefused, eq_comm]

namespace WorkBoard

variable {α : Type} [Scalar α] {board : WorkBoard α} {id : Digest}

section Refusals

/-- Why a completion is refused: there is no such job in progress, or the hash of
the given solution's candidate is not below the magnitude of the job's target. -/
inductive Refuses
    (board : WorkBoard α)
    (id : Digest) :
    Option Solution → Failure → Prop
  | unknown
      (solution : Option Solution)
      (absent : board.job? id = none) :
      Refuses board id solution (.unknownJob id)
  | unsolved
      {job : Job}
      {found : Solution}
      (tracked : board.job? id = some job)
      (notBelow : job.puzzle.target.magnitude ≤
        (Candidate.ofSolution job.puzzle found).hash.toNat) :
      Refuses board id (some found) (.unsolved id)

theorem complete_eq_error_iff
    (board : WorkBoard α)
    (id : Digest)
    (solution : Option Solution)
    (failure : Failure) :
    board.complete id solution = .error failure ↔ board.Refuses id solution failure := by
  unfold complete
  constructor
  · cases found : board.jobs.get? id with
    | none =>
        rintro ⟨⟩
        exact .unknown solution (by rw [job?, found, Option.map_none])
    | some tracked =>
        dsimp only
        split
        · rintro ⟨⟩
        · rename_i invalid
          rintro ⟨⟩
          cases solution with
          | none => exact absurd rfl invalid
          | some given =>
              rw [Option.all_some, WorkProof.isValid_iff] at invalid
              exact .unsolved (by rw [job?, found, Option.map_some]) (Nat.not_lt.mp invalid)
  · intro refuses
    cases refuses with
    | unknown _ absent =>
        rw [job?, Option.map_eq_none_iff] at absent
        rw [absent]
    | unsolved tracked notBelow =>
        obtain ⟨entry, found, rfl⟩ := (job?_eq_some_iff board id _).mp tracked
        rw [found]
        dsimp only
        rw [Option.all_some, if_neg]
        rw [WorkProof.isValid_iff]
        exact Nat.not_lt.mpr notBelow

end Refusals

section Changes

/-- Take a job off a board in place, if it is there. -/
def takeOff
    (id : Digest) :
    EStateM Failure (WorkBoard α) (Option (TrackedJob α)) := do
  match (← get).jobs.get? id with
  | none => return none
  | some tracked =>
      modify fun board => { board with jobs := board.jobs.erase id }
      modify fun board => { board with difficulty := board.difficulty - tracked.difficulty }
      if (← get).jobs.entries.isEmpty then
        modify fun board => { board with difficulty := Scalar.zero }
      return some tracked

/-- Finish a job of a board in place. -/
def submit
    (id : Digest)
    (solution : Option Solution) :
    EStateM Failure (WorkBoard α) (Completion α) := do
  match (← get).jobs.get? id with
  | none => throw (.unknownJob id)
  | some tracked =>
      if solution.all fun solution => (WorkProof.mk tracked.job.puzzle solution).isValid then
        match ← takeOff id with
        | none => throw (.unknownJob id)
        | some tracked => return ⟨tracked.waiting, solution⟩
      else throw (.unsolved id)

theorem run_takeOff
    {tracked : TrackedJob α}
    (found : board.jobs.get? id = some tracked) :
    (takeOff id).run board = .ok (some tracked) (board.untrack id tracked) := by
  simp only [takeOff, EStateM.run_bind, EStateM.run_get, found, EStateM.run_modify]
  unfold untrack
  dsimp only
  split
  · rfl
  · rfl

/-- A job that is found is still there to be taken off, and nothing is refused
afterwards. -/
theorem run_submit
    (board : WorkBoard α)
    (id : Digest)
    (solution : Option Solution) :
    (submit id solution).run board = keepIfRefused board (board.complete id solution) := by
  unfold complete
  cases found : board.jobs.get? id with
  | none =>
      simp only [submit, EStateM.run_bind, EStateM.run_get, found]
      rfl
  | some tracked =>
      simp only [submit, EStateM.run_bind, EStateM.run_get, found]
      split
      · rw [EStateM.run_bind, run_takeOff found]
        rfl
      · rfl

/-- Whether a board stays as it was when it refuses a worker or a completion. -/
structure KeepsRefused (board : WorkBoard α) : Prop where
  assigned : ∀ job worker,
    (board.assign job worker).1 = .full ∨ (board.assign job worker).1 = .tooDifficult ∨
        (board.assign job worker).1 = .tooFast →
      (board.assign job worker).2 = board
  refused_iff : ∀ id solution failure after,
    (submit id solution).run board = .error failure after ↔
      board.Refuses id solution failure ∧ after = board

theorem keepsRefused
    (board : WorkBoard α) :
    board.KeepsRefused where
  assigned := by
    intro job worker refused
    rcases board.assign_cases job worker with ⟨_, same⟩ | ⟨⟨expected, accepted⟩, _⟩
    · exact same
    · rw [accepted] at refused
      simp at refused
  refused_iff := by
    intro id solution failure after
    rw [run_submit, keepIfRefused_eq_error_iff, complete_eq_error_iff]

end Changes

end WorkBoard

namespace Pool

section Boards

variable {α β : Type} {change : EStateM Failure (WorkBoard α) β} {pool : Pool α}
  {board : WorkBoard α}

/-- Change the board of a pool in place. -/
def onBoard
    (change : EStateM Failure (WorkBoard α) β) :
    EStateM Failure (Pool α) β :=
  fun pool =>
    match change.run pool.board with
    | .ok answer board => .ok answer { pool with board := board }
    | .error failure board => .error failure { pool with board := board }

theorem run_onBoard_of_ok
    {answer : β}
    (changed : change.run pool.board = .ok answer board) :
    (onBoard change).run pool = .ok answer { pool with board := board } := by
  change (match change.run pool.board with
    | .ok answer board => EStateM.Result.ok answer { pool with board := board }
    | .error failure board => .error failure { pool with board := board }) = _
  rw [changed]

theorem run_onBoard_of_error
    {failure : Failure}
    (changed : change.run pool.board = .error failure board) :
    (onBoard change).run pool = .error failure { pool with board := board } := by
  change (match change.run pool.board with
    | .ok answer board => EStateM.Result.ok answer { pool with board := board }
    | .error failure board => .error failure { pool with board := board }) = _
  rw [changed]

end Boards

variable {α : Type} [Scalar α]

section Changes

/-- Finish a job of a pool in place. -/
def submit
    (draw : α)
    (id : Digest)
    (solution : Option Solution) :
    EStateM Failure (Pool α) (Settlement α) := do
  match (← get).board.job? id with
  | none => throw (.unknownJob id)
  | some job =>
      let completion ← onBoard (WorkBoard.submit id solution)
      let settlement := (← get).settlementOf id job completion.solution
      modify fun pool =>
        { pool with books := retire pool.books draw id job completion.solution }
      modifyGet (reassign completion.workers settlement)

/-- The board alone may refuse, and it is asked before anything is changed. -/
theorem run_submit
    (pool : Pool α)
    (draw : α)
    (id : Digest)
    (solution : Option Solution) :
    (submit draw id solution).run pool =
      keepIfRefused pool (pool.complete draw id solution) := by
  have onBoard := WorkBoard.run_submit pool.board id solution
  unfold complete
  cases tracked : pool.board.job? id with
  | none =>
      simp only [submit, EStateM.run_bind, EStateM.run_get, tracked]
      rfl
  | some job =>
      simp only [submit, EStateM.run_bind, EStateM.run_get, tracked]
      cases finished : pool.board.complete id solution with
      | error failure =>
          rw [finished] at onBoard
          rw [run_onBoard_of_error onBoard]
          rfl
      | ok completed =>
          rw [finished] at onBoard
          rw [run_onBoard_of_ok onBoard]
          rfl

end Changes

section Refusals

theorem complete_eq_error_iff
    (pool : Pool α)
    (draw : α)
    (id : Digest)
    (solution : Option Solution)
    (failure : Failure) :
    pool.complete draw id solution = .error failure ↔
      pool.board.Refuses id solution failure := by
  rw [← WorkBoard.complete_eq_error_iff]
  unfold complete
  cases tracked : pool.board.job? id with
  | none =>
      have absent : pool.board.jobs.get? id = none := Option.map_eq_none_iff.mp tracked
      simp only [WorkBoard.complete, absent, Except.error.injEq]
  | some job =>
      dsimp only
      cases pool.board.complete id solution with
      | error cause => simp
      | ok completed => simp

/-- Whether a pool stays as it was when it refuses a submission.  Just what is
unknown or unsolved is refused, nothing is changed by that, in place or as a step of
a history, and whoever comes back with a valid solution for the same job is not
refused. -/
structure KeepsRefused (pool : Pool α) : Prop where
  submitted : ∀ draw id solution,
    (submit draw id solution).run pool = keepIfRefused pool (pool.complete draw id solution)
  refused_iff : ∀ draw id solution failure after,
    (submit draw id solution).run pool = .error failure after ↔
      pool.board.Refuses id solution failure ∧ after = pool
  stepped : ∀ draw id solution failure, pool.board.Refuses id solution failure →
    pool.step (.complete draw id solution) = pool
  retried : ∀ draw id solution failure after,
    (submit draw id solution).run pool = .error failure after →
      ∀ job found later, pool.board.job? id = some job →
        (Candidate.ofSolution job.puzzle found).hash.toNat < job.puzzle.target.magnitude →
          ∃ settlement next, (submit later id (some found)).run after = .ok settlement next

/-- Whatever has happened to a pool, and whatever to a board, what they refuse
leaves them as they were. -/
theorem refusalsKeepState
    (pool : Pool α)
    (board : WorkBoard α) :
    pool.KeepsRefused ∧ board.KeepsRefused := by
  have refused_iff : ∀ draw id solution failure after,
      (submit draw id solution).run pool = .error failure after ↔
        pool.board.Refuses id solution failure ∧ after = pool := by
    intro draw id solution failure after
    rw [run_submit, keepIfRefused_eq_error_iff, complete_eq_error_iff]
  refine ⟨⟨pool.run_submit, refused_iff, ?_, ?_⟩, board.keepsRefused⟩
  · intro draw id solution failure refuses
    have answer := (pool.complete_eq_error_iff draw id solution failure).mpr refuses
    simp only [step, answer]
  · intro draw id solution failure after refused job found later tracked below
    obtain ⟨_, rfl⟩ := (refused_iff draw id solution failure after).mp refused
    cases answer : (submit later id (some found)).run after with
    | ok settlement next => exact ⟨settlement, next, rfl⟩
    | error cause left =>
        obtain ⟨refuses, _⟩ := (refused_iff later id (some found) cause left).mp answer
        cases refuses with
        | unknown _ absent =>
            rw [tracked] at absent
            contradiction
        | unsolved other notBelow =>
            obtain rfl := Option.some.inj (tracked.symm.trans other)
            exact absurd below (Nat.not_lt.mpr notBelow)

end Refusals

end Pool
end WorkMarket
