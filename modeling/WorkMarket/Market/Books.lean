import WorkMarket.Market.AddressBook
import WorkMarket.Market.BountySchedule
import WorkMarket.Market.ContractQueue
import WorkMarket.Market.Ledger
import WorkMarket.Market.Sales

/-!
# What the chain brings

The books hold everything that events on the chain change: the ledger, the
sales, both schedules and the addresses.  `pay` enters an output that pays a
work script, `spend` enters the spending of an output.
-/

namespace WorkMarket

/-- Everything that events on the chain change. -/
structure Books (α : Type) where
  ledger : Ledger α
  sales : SalesBook
  contracts : ContractSchedule α
  bounties : BountySchedule α
  addresses : AddressBook

namespace Books

variable {α : Type} [Scalar α]

/-- Empty books. -/
def empty
    (addresses : AddressBook)
    (costs : CostModel α) :
    Books α :=
  ⟨Ledger.empty, Keyed.empty, ContractSchedule.empty, BountySchedule.empty costs, addresses⟩

/-- Rank the bounty of an output.  A bounty that is ranked already only gets
another output; any other takes a fresh address. -/
def rankBounty
    (books : Books α)
    (output : Output)
    (draw : α) :
    Books α :=
  match books.bounties.addOutput output with
  | (true, bounties) => { books with bounties := bounties }
  | (false, _) =>
      let (address, addresses) := books.addresses.issue
      { books with
        addresses := addresses
        bounties := books.bounties.insert ⟨output, address⟩ draw }

/-- Queue the contract of an output, if it was offered.  A contract that was
accepted already only gets another output. -/
def acceptContract
    (books : Books α)
    (output : Output) :
    Books α :=
  match Keyed.get? books.sales output.id with
  | none => books
  | some sale =>
      match sale.status with
      | .offered =>
          { books with
            contracts := books.contracts.insert (ContractJob.ofOutput output sale.secret)
            sales := (SalesBook.update books.sales output.id .accepted).2 }
      | .accepted => { books with contracts := (books.contracts.addOutput output).2 }
      | .notOurs | .working | .completed => books

/-- An output pays a work script.  The answer is the kind of the script, or
invalid for what is no work script or was known before. -/
def pay
    (books : Books α)
    (now : Instant)
    (draw : α)
    (script : LockingScript)
    (value : UInt64)
    (outpoint : Outpoint) :
    ScriptKind × Books α :=
  if script.isValid ∧ outpoint.isValid then
    let (_, ledger) := books.ledger.put now script
    let (fresh, ledger) := ledger.register now script.id value outpoint
    let books := { books with ledger := ledger }
    let output := Output.ofScript outpoint script value
    if fresh then
      match script.kind with
      | .invalid => (.invalid, books)
      | .bounty => (.bounty, books.rankBounty output draw)
      | .contract => (.contract, books.acceptContract output)
    else (.invalid, books)
  else (.invalid, books)

/-- A transaction spends an output.  The answer is the name of its script if
every output of the script is spent now; the script has left both schedules
then. -/
def spend
    (books : Books α)
    (draw : α)
    (outpoint : Outpoint)
    (spender : Digest) :
    Option Digest × Books α :=
  let (found, ledger) := books.ledger.redeem outpoint spender
  let books := { books with ledger := ledger }
  match found with
  | some (id, .redeemed) =>
      (some id,
        { books with
          contracts := (books.contracts.remove id).2
          bounties := (books.bounties.remove id draw).2 })
  | some _ | none => (none, books)

end Books

end WorkMarket
