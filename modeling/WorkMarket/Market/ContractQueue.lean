import WorkMarket.Market.Output
import WorkMarket.Market.Worker
import WorkMarket.Number.Scalar

/-!
# The queue of contracts

Contracts are worked strictly in order of arrival.  The schedule keeps the job
of the first contract selected and hands its puzzle to the workers.
-/

namespace WorkMarket

/-- A contract output with the key that redeems it. -/
structure ContractJob where
  output : Output
  secret : Secret
  /-- Every output that pays the script, the queued one first. -/
  outpoints : List Outpoint
deriving DecidableEq, Inhabited

namespace ContractJob

/-- The contract of an output. -/
def ofOutput
    (output : Output)
    (secret : Secret) :
    ContractJob :=
  ⟨output, secret, [output.outpoint]⟩

/-- Output and key must be valid. -/
def isValid
    (contract : ContractJob) :
    Bool :=
  contract.output.isValid && contract.secret.isValid

/-- The job for the miner to whom the contract is bound. -/
def job
    (contract : ContractJob) :
    Job :=
  Job.ofScript contract.output.script contract.output.script.minerAddress

/-- The difficulty, none for an invalid target. -/
def difficulty
    {α : Type}
    [Scalar α]
    (contract : ContractJob) :
    α :=
  match contract.output.script.difficulty with
  | .ok difficulty => difficulty.view α
  | .error _ => Scalar.zero

/-- Whether a contract can be worked on. -/
def isWorkable
    (contract : ContractJob) :
    Bool :=
  contract.isValid && contract.output.script.kind = .contract &&
    contract.output.script.target.isValid

/-- Note another output, unless it is known. -/
def addOutpoint
    (contract : ContractJob)
    (outpoint : Outpoint) :
    ContractJob :=
  if contract.outpoints.contains outpoint then contract
  else { contract with outpoints := contract.outpoints ++ [outpoint] }

end ContractJob

/-- Contracts in order of arrival. -/
structure ContractQueue (α : Type) where
  jobs : List ContractJob
  /-- The sum of the difficulties, kept as contracts come and go. -/
  difficulty : α
deriving DecidableEq

namespace ContractQueue

variable {α : Type} [Scalar α]

/-- No contracts. -/
def empty : ContractQueue α :=
  ⟨[], Scalar.zero⟩

instance : Inhabited (ContractQueue α) := ⟨empty⟩

/-- The earliest contract. -/
def front?
    (queue : ContractQueue α) :
    Option ContractJob :=
  queue.jobs.head?

/-- The earliest contract of a name. -/
def get?
    (queue : ContractQueue α)
    (id : Digest) :
    Option ContractJob :=
  queue.jobs.find? fun contract => contract.output.id = id

/-- Whether a name is queued. -/
def contains
    (queue : ContractQueue α)
    (id : Digest) :
    Bool :=
  (queue.get? id).isSome

/-- Note an output with the earliest contract of its name. -/
def addToFirst
    (output : Output) :
    List ContractJob → List ContractJob
  | [] => []
  | contract :: rest =>
      if contract.output.id = output.id then contract.addOutpoint output.outpoint :: rest
      else contract :: addToFirst output rest

/-- Note another output of a queued contract; the answer is whether it is
queued. -/
def addOutput
    (queue : ContractQueue α)
    (output : Output) :
    Bool × ContractQueue α :=
  (queue.contains output.id, { queue with jobs := addToFirst output queue.jobs })

/-- Queue a contract.  What cannot be worked on is ignored. -/
def push
    (queue : ContractQueue α)
    (contract : ContractJob) :
    ContractQueue α :=
  if contract.isWorkable then
    ⟨queue.jobs ++ [contract], queue.difficulty + contract.difficulty⟩
  else queue

/-- The total after a contract has left.  An empty queue has no difficulty,
whatever was rounded before. -/
def reduced
    (jobs : List ContractJob)
    (difficulty : α)
    (left : ContractJob) :
    α :=
  if jobs.isEmpty then Scalar.zero else difficulty - left.difficulty

/-- Take the earliest contract. -/
def pop
    (queue : ContractQueue α) :
    Option ContractJob × ContractQueue α :=
  match queue.jobs with
  | [] => (none, queue)
  | contract :: rest => (some contract, ⟨rest, reduced rest queue.difficulty contract⟩)

/-- Take every contract of a name. -/
def remove
    (queue : ContractQueue α)
    (id : Digest) :
    List ContractJob × ContractQueue α :=
  let (removed, kept) := queue.jobs.partition fun contract => contract.output.id = id
  (removed, ⟨kept, removed.foldl (reduced kept) queue.difficulty⟩)

end ContractQueue

/-- The queue of contracts with the job that is handed to workers. -/
structure ContractSchedule (α : Type) where
  queue : ContractQueue α
  /-- The job of the earliest contract. -/
  selected : Job
deriving DecidableEq

namespace ContractSchedule

variable {α : Type} [Scalar α]

/-- Nothing to do. -/
def empty : ContractSchedule α :=
  ⟨ContractQueue.empty, Job.absent⟩

instance : Inhabited (ContractSchedule α) := ⟨empty⟩

/-- Select the job of the earliest contract. -/
def ofQueue
    (queue : ContractQueue α) :
    ContractSchedule α :=
  ⟨queue, (queue.front?.map ContractJob.job).getD Job.absent⟩

/-- The contract that is worked on. -/
def current?
    (schedule : ContractSchedule α) :
    Option ContractJob :=
  schedule.queue.front?

/-- Queue a contract; it is selected if nothing else is. -/
def insert
    (schedule : ContractSchedule α)
    (contract : ContractJob) :
    ContractSchedule α :=
  let queue := schedule.queue.push contract
  if schedule.selected.isValid then ⟨queue, schedule.selected⟩ else ofQueue queue

/-- Note another output of a queued contract. -/
def addOutput
    (schedule : ContractSchedule α)
    (output : Output) :
    Bool × ContractSchedule α :=
  let (known, queue) := schedule.queue.addOutput output
  (known, { schedule with queue := queue })

/-- Take the earliest contract and select the next. -/
def pop
    (schedule : ContractSchedule α) :
    Option ContractJob × ContractSchedule α :=
  let (popped, queue) := schedule.queue.pop
  (popped, ofQueue queue)

/-- Take every contract of a name; the answer is the list of their outputs. -/
def remove
    (schedule : ContractSchedule α)
    (id : Digest) :
    List Outpoint × ContractSchedule α :=
  let (removed, queue) := schedule.queue.remove id
  (removed.flatMap ContractJob.outpoints, ofQueue queue)

/-- Go on to the next contract if the selected puzzle is the one solved. -/
def finish
    (schedule : ContractSchedule α)
    (completed : Puzzle) :
    ContractSchedule α :=
  if schedule.selected.isValid ∧ schedule.selected.puzzle.equivalent completed then
    schedule.pop.2
  else schedule

/-- Work for waiting workers. -/
def assign
    (schedule : ContractSchedule α)
    (waiting : List (Waiting α)) :
    List Assignment :=
  schedule.selected.assignAll waiting

/-- Workers stay where they are. -/
def rebalance
    (_schedule : ContractSchedule α) :
    List Assignment :=
  []

end ContractSchedule

end WorkMarket
