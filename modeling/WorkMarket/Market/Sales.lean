import WorkMarket.Market.Keyed
import WorkMarket.Number.Instant
import WorkMarket.Work.Job

/-!
# Sales of contracts

A sale is an offer to work on a contract: the job, the key behind the miner's
address, and how far things have come.
-/

namespace WorkMarket

/-- How far a sale has come. -/
inductive SaleStatus where
  | notOurs
  | offered
  | accepted
  | working
  | completed
deriving DecidableEq, Inhabited

namespace SaleStatus

/-- The word for a status. -/
def text : SaleStatus → String
  | notOurs => "not_ours"
  | offered => "offered"
  | accepted => "accepted"
  | working => "working"
  | completed => "completed"

/-- Every status. -/
def all : List SaleStatus :=
  [notOurs, offered, accepted, working, completed]

end SaleStatus

/-- A contract that was offered. -/
structure Sale where
  status : SaleStatus
  createdAt : Instant
  expiresAt : Instant
  job : Job
  /-- The key for the miner's address of the contract. -/
  secret : Secret
deriving DecidableEq, Inhabited

namespace Sale

/-- Offer to work on a contract. -/
def offer
    (now : Instant)
    (job : Job)
    (secret : Secret)
    (expiresAt : Instant) :
    Sale :=
  ⟨.offered, now, expiresAt, job, secret⟩

/-- The name of the script that the sale is for. -/
def id
    (sale : Sale) :
    Digest :=
  sale.job.id

/-- Whether an offer has run out. -/
def isExpired
    (sale : Sale)
    (now : Instant) :
    Bool :=
  sale.expiresAt.isBefore now

end Sale

/-- The sales by the names of their scripts. -/
abbrev SalesBook := Keyed Digest Sale

namespace SalesBook

/-- Enter a sale, in place of any earlier one of the same script. -/
def enter
    (sales : SalesBook)
    (sale : Sale) :
    SalesBook :=
  Keyed.put sales sale.id sale

/-- Change the status of a sale; the answer is whether there is one. -/
def update
    (sales : SalesBook)
    (id : Digest)
    (status : SaleStatus) :
    Bool × SalesBook :=
  match Keyed.get? sales id with
  | none => (false, sales)
  | some sale => (true, Keyed.put sales id { sale with status := status })

end SalesBook

end WorkMarket
