import WorkMarket.Market.Books
import WorkMarket.Market.Goal
import WorkMarket.Market.WorkBoard

/-!
# The pool

The pool ties everything together: outputs that appear on the chain queue
work, workers are put on contracts first and on bounties next, and a finished
job is settled, whereupon its workers get other work.  Time and draws come as
arguments.  `Operation` lists what can happen to a pool, the order of the jobs in
progress changing among it, and `run` lets it happen in turn.
-/

namespace WorkMarket

/-- What can be tuned in a pool. -/
structure PoolSettings (α : Type) where
  /-- How long the queued contracts should take. -/
  queueTime : Duration
  limits : BoardLimits α
  costs : CostModel α
deriving DecidableEq

namespace PoolSettings

variable {α : Type} [Scalar α]

/-- The usual settings. -/
def usual : PoolSettings α :=
  ⟨Goal.usualQueueTime, ⟨64, Scalar.ofNat 1000000, Duration.ofSeconds 30⟩,
    ⟨Scalar.zero, Scalar.one⟩⟩

instance : Inhabited (PoolSettings α) := ⟨usual⟩

end PoolSettings

/-- What to do with a finished job. -/
structure Settlement (α : Type) where
  id : Digest
  kind : ScriptKind
  /-- The outputs that the solution redeems. -/
  outpoints : List Outpoint
  solution : Option Solution
  /-- Where a solved bounty is redeemed to. -/
  redeemAddress : Option Address
  /-- The key for a solved contract. -/
  secret : Option Secret
  /-- Other work for the workers. -/
  assignments : List Assignment
  /-- The workers for whom there is none. -/
  idle : List (Waiting α)
deriving DecidableEq

/-- A summary of a pool. -/
structure PoolStatus (α : Type) where
  contractsQueued : Nat
  contractDifficulty : α
  bountiesQueued : Nat
  bountyDifficulty : α
  /-- The difficulty of the bounties that pay. -/
  profitableDifficulty : α
  inProgress : Nat
  inProgressDifficulty : α
  goal : Goal α
deriving DecidableEq

/-- Everything a pool knows. -/
structure Pool (α : Type) where
  settings : PoolSettings α
  books : Books α
  board : WorkBoard α
  goal : Goal α

namespace Pool

variable {α : Type} [Scalar α]

/-- A pool that has seen nothing. -/
def fresh
    (settings : PoolSettings α)
    (addresses : AddressBook) :
    Pool α :=
  ⟨settings, Books.empty addresses settings.costs, WorkBoard.empty settings.limits,
    Goal.start.withQueueTime settings.queueTime⟩

/-- An output appears on the chain. -/
def pay
    (pool : Pool α)
    (now : Instant)
    (draw : α)
    (script : LockingScript)
    (value : UInt64)
    (outpoint : Outpoint) :
    ScriptKind × Pool α :=
  let (kind, books) := pool.books.pay now draw script value outpoint
  (kind, { pool with books := books })

/-- An output is spent.  If someone works on what is thereby redeemed, the
answer is the workers, who need other work. -/
def spend
    (pool : Pool α)
    (draw : α)
    (outpoint : Outpoint)
    (spender : Digest) :
    List (Waiting α) × Pool α :=
  let (redeemed, books) := pool.books.spend draw outpoint spender
  let pool := { pool with books := books }
  match redeemed with
  | none => ([], pool)
  | some id =>
      match pool.board.complete id none with
      | .error _ => ([], pool)
      | .ok (completion, board) => (completion.workers, { pool with board := board })

/-- Offer to work on a contract.  The sale is accepted once its output
appears. -/
def offer
    (pool : Pool α)
    (now : Instant)
    (job : Job)
    (secret : Secret)
    (expiresAt : Instant) :
    Except Failure (Digest × Pool α) :=
  if job.kind ≠ .contract ∨ ¬job.isValid then .error .offerKind
  else if ¬secret.isValid then .error .offerSecret
  else
    let sale := Sale.offer now job secret expiresAt
    .ok (sale.id,
      { pool with books := { pool.books with sales := SalesBook.enter pool.books.sales sale } })

/-- Ask the board to take a worker on a job; the answer is whether it did. -/
def place
    (pool : Pool α)
    (job : Job)
    (worker : Waiting α) :
    Option Assignment × Pool α :=
  match job.assignAll [worker] with
  | [] => (none, pool)
  | assignment :: _ =>
      match pool.board.assign job worker with
      | (.accepted _, board) => (some assignment, { pool with board := board })
      | (.full, board) | (.tooDifficult, board) | (.tooFast, board) =>
          (none, { pool with board := board })

/-- Find work for a worker, contracts first.  It leaves the job it was on. -/
def assign
    (pool : Pool α)
    (worker : Waiting α) :
    Option Assignment × Pool α :=
  let pool := { pool with board := (pool.board.release worker.worker).2 }
  let (found, pool) :=
    match pool.books.contracts.current? with
    | some _ => pool.place pool.books.contracts.selected worker
    | none => (none, pool)
  match found with
  | some assignment => (some assignment, pool)
  | none => pool.place pool.books.bounties.selected worker

/-- Take a worker off its job; the answer is the name of the job. -/
def release
    (pool : Pool α)
    (worker : WorkerId) :
    Option Digest × Pool α :=
  let (id, board) := pool.board.release worker
  (id, { pool with board := board })

/-- The outputs that a finished job redeems. -/
def redeemedOutpoints
    (pool : Pool α)
    (kind : ScriptKind)
    (id : Digest) :
    List Outpoint :=
  match kind with
  | .invalid => []
  | .bounty => pool.books.bounties.ranking.outpoints id
  | .contract =>
      ((pool.books.contracts.queue.get? id).map ContractJob.outpoints).getD []

/-- What is known about a finished job before its workers get other work. -/
def settlementOf
    (pool : Pool α)
    (id : Digest)
    (job : Job)
    (solution : Option Solution) :
    Settlement α where
  id := id
  kind := job.kind
  outpoints := pool.redeemedOutpoints job.kind id
  solution := solution
  redeemAddress :=
    if job.kind = .bounty ∧ solution.isSome then some job.minerAddress else none
  secret :=
    if job.kind = .contract ∧ solution.isSome then
      (pool.books.contracts.current?.filter fun contract => contract.output.id = id).map
        ContractJob.secret
    else none
  assignments := []
  idle := []

/-- Take a finished job out of its queue; a sale is completed if the job was
solved here. -/
def retire
    (books : Books α)
    (draw : α)
    (id : Digest)
    (job : Job)
    (solution : Option Solution) :
    Books α :=
  match job.kind with
  | .invalid => books
  | .bounty => { books with bounties := books.bounties.finish job.puzzle draw }
  | .contract =>
      { books with
        contracts := books.contracts.finish job.puzzle
        sales :=
          if solution.isSome then (SalesBook.update books.sales id .completed).2
          else books.sales }

/-- Find other work for each worker of a finished job in turn. -/
def reassign : List (Waiting α) → Settlement α → Pool α → Settlement α × Pool α
  | [], settlement, pool => (settlement, pool)
  | worker :: rest, settlement, pool =>
      match pool.assign worker with
      | (some assignment, pool) =>
          reassign rest
            { settlement with assignments := settlement.assignments ++ [assignment] } pool
      | (none, pool) =>
          reassign rest { settlement with idle := settlement.idle ++ [worker] } pool

/-- Finish a job, solved here or, without a solution, redeemed elsewhere.  Its
workers get other work. -/
def complete
    (pool : Pool α)
    (draw : α)
    (id : Digest)
    (solution : Option Solution) :
    Except Failure (Settlement α × Pool α) :=
  match pool.board.job? id with
  | none => .error (.unknownJob id)
  | some job =>
      match pool.board.complete id solution with
      | .error failure => .error failure
      | .ok (completion, board) =>
          .ok (reassign completion.workers (pool.settlementOf id job completion.solution)
            { pool with
              books := retire pool.books draw id job completion.solution
              board := board })

/-- The difficulty of the ranked bounties that pay at the pool's costs. -/
def profitableDifficulty
    (pool : Pool α) :
    α :=
  pool.books.bounties.ranking.profitableDifficulty pool.settings.costs

/-- What the market looks like from here. -/
def observe
    (pool : Pool α)
    (blocks price : α)
    (current : Split α) :
    Observation α :=
  ⟨blocks, price, pool.profitableDifficulty, pool.books.contracts.queue.difficulty, current⟩

/-- Reconsider the goal; the old one stays if that fails. -/
def reassess
    (pool : Pool α)
    (observation : Observation α) :
    Except Failure (Goal α × Pool α) :=
  (pool.goal.reassess observation).map fun goal => (goal, { pool with goal := goal })

/-- A summary of the pool. -/
def status
    (pool : Pool α) :
    PoolStatus α where
  contractsQueued := pool.books.contracts.queue.jobs.length
  contractDifficulty := pool.books.contracts.queue.difficulty
  bountiesQueued := pool.books.bounties.ranking.entries.length
  bountyDifficulty := pool.books.bounties.ranking.difficulty
  profitableDifficulty := pool.profitableDifficulty
  inProgress := pool.board.jobs.size
  inProgressDifficulty := pool.board.difficulty
  goal := pool.goal

/-- What can happen to a pool. -/
inductive Operation (α : Type) where
  /-- An output appears. -/
  | pay (now : Instant) (draw : α) (script : LockingScript) (value : UInt64)
      (outpoint : Outpoint)
  /-- An output is spent. -/
  | spend (draw : α) (outpoint : Outpoint) (spender : Digest)
  /-- A contract is offered. -/
  | offer (now : Instant) (job : Job) (secret : Secret) (expiresAt : Instant)
  /-- A worker asks for work. -/
  | assign (worker : Waiting α)
  /-- A worker leaves. -/
  | release (worker : WorkerId)
  /-- A job is finished. -/
  | complete (draw : α) (id : Digest) (solution : Option Solution)
  /-- The jobs in progress and their workers come into another order; there is none
  to rely on. -/
  | rearrange (arrangement : Arrangement)

/-- The pool after something has happened.  What is refused changes nothing. -/
def step
    (pool : Pool α) :
    Operation α → Pool α
  | .pay now draw script value outpoint => (pool.pay now draw script value outpoint).2
  | .spend draw outpoint spender => (pool.spend draw outpoint spender).2
  | .offer now job secret expiresAt =>
      match pool.offer now job secret expiresAt with
      | .ok (_, next) => next
      | .error _ => pool
  | .assign worker => (pool.assign worker).2
  | .release worker => (pool.release worker).2
  | .complete draw id solution =>
      match pool.complete draw id solution with
      | .ok (_, next) => next
      | .error _ => pool
  | .rearrange arrangement => { pool with board := pool.board.rearrange arrangement }

/-- The pool after a history. -/
def run
    (pool : Pool α)
    (operations : List (Operation α)) :
    Pool α :=
  operations.foldl step pool

end Pool

end WorkMarket
