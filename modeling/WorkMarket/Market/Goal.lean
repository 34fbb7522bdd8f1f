import WorkMarket.Failure
import WorkMarket.Market.Split
import WorkMarket.Number.Duration

/-!
# Goals

A goal says how hashpower should be split, what contracts should cost and how
long their queue should take.  It is to be reconsidered with every block, on
an observation of the market; the rule for that is not settled.
-/

namespace WorkMarket

/-- The time to work off so much difficulty; there is none without hashpower. -/
def drainTime?
    {α : Type}
    [Scalar α]
    (difficulty hashpower : α) :
    Option Duration :=
  if hashpower ≤ Scalar.zero ∨ difficulty < Scalar.zero then none
  else Scalar.toDuration? (difficulty / hashpower)

/-- What the market looked like when a block arrived. -/
structure Observation (α : Type) where
  /-- The profitability of blocks. -/
  blocks : α
  /-- The price of one unit of difficulty. -/
  price : α
  /-- The difficulty of the bounties that pay. -/
  bountyDifficulty : α
  /-- The difficulty of the queued contracts. -/
  contractDifficulty : α
  /-- The hashpower on each kind of work. -/
  current : Split α
deriving DecidableEq

/-- What a pool aims for. -/
structure Goal (α : Type) where
  /-- The shares of hashpower. -/
  shares : Split α
  /-- The price of one unit of difficulty of a contract. -/
  price : α
  /-- How long the queued contracts should take. -/
  queueTime : Duration
deriving DecidableEq

namespace Goal

variable {α : Type} [Scalar α]

/-- Ten minutes. -/
def usualQueueTime : Duration :=
  Duration.ofSeconds 600

/-- A goal with the usual time for the queue. -/
def ofShares
    (shares : Split α)
    (price : α) :
    Goal α :=
  ⟨shares, price, usualQueueTime⟩

/-- Nothing but blocks, and contracts for free. -/
def start : Goal α :=
  ofShares Split.blocksOnly Scalar.zero

instance : Inhabited (Goal α) := ⟨start⟩

/-- The same goal with another time for the queue. -/
def withQueueTime
    (goal : Goal α)
    (queueTime : Duration) :
    Goal α :=
  { goal with queueTime := queueTime }

/-- The goal after an observation. -/
def reassess
    (_goal : Goal α)
    (_observation : Observation α) :
    Except Failure (Goal α) :=
  .error .goalUnsettled

end Goal

end WorkMarket
