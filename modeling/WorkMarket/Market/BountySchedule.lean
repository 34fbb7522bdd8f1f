import WorkMarket.Market.Keyed
import WorkMarket.Market.Ranking
import WorkMarket.Market.Worker

/-!
# The lottery of bounties

The schedule knows the address to which each ranked bounty will be redeemed,
and keeps one bounty selected, which was drawn with a weight in proportion to
its profitability.  Every operation that may draw takes the draw, a number
from zero up to one, as an argument.
-/

namespace WorkMarket

/-- A bounty output and the address it will be redeemed to. -/
structure BountyJob where
  output : Output
  redeemAddress : Address
deriving DecidableEq

/-- The ranked bounties with the job that is handed to workers. -/
structure BountySchedule (α : Type) where
  ranking : Ranking α
  /-- Where each ranked bounty is redeemed to. -/
  addresses : Keyed Digest Address
  selected : Job
  costs : CostModel α
deriving DecidableEq

namespace BountySchedule

variable {α : Type} [Scalar α]

/-- Nothing to do, at given costs. -/
def empty
    (costs : CostModel α) :
    BountySchedule α :=
  ⟨Ranking.empty, Keyed.empty, Job.absent, costs⟩

/-- The address a bounty will be redeemed to. -/
def redeemAddress?
    (schedule : BountySchedule α)
    (id : Digest) :
    Option Address :=
  schedule.addresses.get? id

/-- Judge by other costs from now on. -/
def withCosts
    (schedule : BountySchedule α)
    (costs : CostModel α) :
    BountySchedule α :=
  { schedule with costs := costs }

/-- The job that a draw falls on. -/
def drawn
    (schedule : BountySchedule α)
    (draw : α) :
    Job :=
  match schedule.ranking.select? schedule.costs draw with
  | none => Job.absent
  | some script =>
      match schedule.addresses.get? script.id with
      | none => Job.absent
      | some address => Job.ofScript script address

/-- Draw another job. -/
def select
    (schedule : BountySchedule α)
    (draw : α) :
    BountySchedule α :=
  { schedule with selected := schedule.drawn draw }

/-- The ranked bounty whose job is a given puzzle. -/
def find?
    (schedule : BountySchedule α)
    (puzzle : Puzzle) :
    Option Digest :=
  (schedule.ranking.entries.find? fun entry =>
    match schedule.addresses.get? entry.id with
    | none => false
    | some address => (Job.ofScript entry.script address).puzzle.equivalent puzzle).map
      RankedBounty.id

/-- Rank a bounty.  Its address is recorded when it enters the ranking, and a
job is drawn if none is selected. -/
def insert
    (schedule : BountySchedule α)
    (bounty : BountyJob)
    (draw : α) :
    BountySchedule α :=
  let id := bounty.output.id
  let ranking := schedule.ranking.push bounty.output
  let entered := !schedule.ranking.contains id && ranking.contains id
  let addresses :=
    if entered then schedule.addresses.put id bounty.redeemAddress else schedule.addresses
  let inserted := { schedule with ranking := ranking, addresses := addresses }
  if schedule.selected.isValid then inserted else inserted.select draw

/-- Note another output of a ranked bounty. -/
def addOutput
    (schedule : BountySchedule α)
    (output : Output) :
    Bool × BountySchedule α :=
  let (known, ranking) := schedule.ranking.addOutput output
  (known, { schedule with ranking := ranking })

/-- Take a bounty away; the answer is the list of its outputs.  Another job is
drawn if its job was selected. -/
def remove
    (schedule : BountySchedule α)
    (id : Digest)
    (draw : α) :
    List Outpoint × BountySchedule α :=
  let (outpoints, ranking) := schedule.ranking.remove id
  let removed := { schedule with ranking := ranking, addresses := schedule.addresses.erase id }
  (outpoints,
    if schedule.selected.isValid ∧ schedule.selected.id = id then removed.select draw
    else removed)

/-- Take away the bounty whose puzzle is solved, if it is ranked, and draw
another job. -/
def finish
    (schedule : BountySchedule α)
    (completed : Puzzle)
    (draw : α) :
    BountySchedule α :=
  let remaining :=
    match schedule.find? completed with
    | some id => (schedule.remove id draw).2
    | none => schedule
  remaining.select draw

/-- Work for waiting workers. -/
def assign
    (schedule : BountySchedule α)
    (waiting : List (Waiting α)) :
    List Assignment :=
  schedule.selected.assignAll waiting

/-- Workers stay where they are. -/
def rebalance
    (_schedule : BountySchedule α) :
    List Assignment :=
  []

end BountySchedule

end WorkMarket
