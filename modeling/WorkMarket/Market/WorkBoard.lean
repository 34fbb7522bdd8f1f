import WorkMarket.Market.Keyed
import WorkMarket.Market.Worker
import WorkMarket.Number.Scalar

/-!
# Jobs in progress

The board holds the jobs that workers are solving.  It is bounded three ways:
by the number of jobs, by the sum of their difficulties, and by the time a job
is expected to take, since a job solved too fast is not worth sharing.
-/

namespace WorkMarket

/-- What a board can take. -/
structure BoardLimits (α : Type) where
  maxJobs : Nat
  maxDifficulty : α
  /-- The least time a job should take. -/
  minTime : Duration
deriving DecidableEq

/-- A job with its workers and their hashpower. -/
structure TrackedJob (α : Type) where
  job : Job
  difficulty : α
  workers : Keyed WorkerId α
deriving DecidableEq

/-- The answer to asking for a place on a job. -/
inductive Admission where
  /-- The worker is on the job, which should take so long. -/
  | accepted (expected : Duration)
  /-- There are too many jobs. -/
  | full
  /-- The difficulties would add up to too much. -/
  | tooDifficult
  /-- The job would be solved too fast. -/
  | tooFast
deriving DecidableEq

/-- The time a job should take; without hashpower it is the longest. -/
def expectedTime
    {α : Type}
    [Scalar α]
    (difficulty hashpower : α) :
    Duration :=
  if hashpower ≤ Scalar.zero then Duration.longest
  else (Scalar.toDuration? (difficulty / hashpower)).getD Duration.longest

namespace TrackedJob

variable {α : Type} [Scalar α]

/-- The hashpower of all workers on a job. -/
def hashpower
    (tracked : TrackedJob α) :
    α :=
  Scalar.sum tracked.workers.values

/-- The workers on a job, as they would wait for the next. -/
def waiting
    (tracked : TrackedJob α) :
    List (Waiting α) :=
  tracked.workers.entries.map fun entry => ⟨entry.1, entry.2⟩

end TrackedJob

/-- An order to go through the jobs of a board, and one for the workers of each
job. -/
structure Arrangement where
  jobs : List Digest
  workers : Digest → List WorkerId

/-- What is released when a job finishes. -/
structure Completion (α : Type) where
  /-- Workers that need other work. -/
  workers : List (Waiting α)
  /-- The solution, if it was found here. -/
  solution : Option Solution
deriving DecidableEq

/-- The jobs that workers are solving. -/
structure WorkBoard (α : Type) where
  limits : BoardLimits α
  /-- The jobs by the names of their scripts. -/
  jobs : Keyed Digest (TrackedJob α)
  /-- The sum of the difficulties, kept as jobs come and go. -/
  difficulty : α
deriving DecidableEq

namespace WorkBoard

variable {α : Type} [Scalar α]

/-- A board without jobs. -/
def empty
    (limits : BoardLimits α) :
    WorkBoard α :=
  ⟨limits, Keyed.empty, Scalar.zero⟩

/-- Whether a job is in progress. -/
def contains
    (board : WorkBoard α)
    (id : Digest) :
    Bool :=
  board.jobs.contains id

/-- The job of a name. -/
def job?
    (board : WorkBoard α)
    (id : Digest) :
    Option Job :=
  (board.jobs.get? id).map TrackedJob.job

/-- The workers on a job. -/
def workers
    (board : WorkBoard α)
    (id : Digest) :
    List (Waiting α) :=
  ((board.jobs.get? id).map TrackedJob.waiting).getD []

/-- Let a worker join a job in progress. -/
def join
    (board : WorkBoard α)
    (id : Digest)
    (tracked : TrackedJob α)
    (worker : Waiting α) :
    Admission × WorkBoard α :=
  let expected := expectedTime tracked.difficulty (tracked.hashpower + worker.hashpower)
  if expected < board.limits.minTime then (.tooFast, board)
  else
    (.accepted expected,
      { board with
        jobs := board.jobs.put id
          { tracked with workers := tracked.workers.put worker.worker worker.hashpower } })

/-- Let a worker begin a job. -/
def begin
    (board : WorkBoard α)
    (id : Digest)
    (job : Job)
    (worker : Waiting α) :
    Admission × WorkBoard α :=
  if board.limits.maxJobs ≤ board.jobs.size then (.full, board)
  else
    match job.puzzle.target.difficulty with
    | .error _ => (.tooDifficult, board)
    | .ok difficulty =>
        let difficulty := difficulty.view α
        let total := board.difficulty + difficulty
        let expected := expectedTime difficulty worker.hashpower
        if board.limits.maxDifficulty < total then (.tooDifficult, board)
        else if expected < board.limits.minTime then (.tooFast, board)
        else
          (.accepted expected,
            { board with
              jobs := board.jobs.put id
                ⟨job, difficulty, Keyed.empty.put worker.worker worker.hashpower⟩
              difficulty := total })

/-- Put a worker on a job. -/
def assign
    (board : WorkBoard α)
    (job : Job)
    (worker : Waiting α) :
    Admission × WorkBoard α :=
  let id := job.id
  match board.jobs.get? id with
  | some tracked => board.join id tracked worker
  | none => board.begin id job worker

/-- Take a job off the board.  An empty board has no difficulty, whatever was
rounded before. -/
def untrack
    (board : WorkBoard α)
    (id : Digest)
    (tracked : TrackedJob α) :
    WorkBoard α :=
  let jobs := board.jobs.erase id
  { board with
    jobs := jobs
    difficulty :=
      if jobs.entries.isEmpty then Scalar.zero else board.difficulty - tracked.difficulty }

/-- Take a worker off its job; the answer is the name of the job.  A job left
without workers comes off the board. -/
def release
    (board : WorkBoard α)
    (worker : WorkerId) :
    Option Digest × WorkBoard α :=
  match board.jobs.entries.find? fun entry => entry.2.workers.contains worker with
  | none => (none, board)
  | some (id, tracked) =>
      let workers := tracked.workers.erase worker
      (some id,
        if workers.entries.isEmpty then board.untrack id tracked
        else { board with jobs := board.jobs.put id { tracked with workers := workers } })

/-- Finish a job.  A solution must be valid for the job's puzzle; without one
the job was redeemed elsewhere. -/
def complete
    (board : WorkBoard α)
    (id : Digest)
    (solution : Option Solution) :
    Except Failure (Completion α × WorkBoard α) :=
  match board.jobs.get? id with
  | none => .error (.unknownJob id)
  | some tracked =>
      if solution.all fun solution => (WorkProof.mk tracked.job.puzzle solution).isValid then
        .ok (⟨tracked.waiting, solution⟩, board.untrack id tracked)
      else .error (.unsolved id)

/-- Go through the jobs, and through the workers of each, in another order. -/
def rearrange
    {α : Type}
    (board : WorkBoard α)
    (arrangement : Arrangement) :
    WorkBoard α :=
  { board with
    jobs := (board.jobs.mapValues fun id tracked =>
      { tracked with workers := tracked.workers.arrange (arrangement.workers id) }).arrange
        arrangement.jobs }

end WorkBoard

end WorkMarket
