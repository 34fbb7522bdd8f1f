import WorkMarket.Number.Scalar

/-!
# Splitting hashpower

Hashpower is difficulty per second.  A pool divides it between blocks, bounties
and contracts in proportion to how profitable each is.  Blocks always keep a
quarter, and get everything when nothing else pays.
-/

namespace WorkMarket

/-- An amount for each kind of work. -/
structure Split (α : Type) where
  blocks : α
  bounties : α
  contracts : α
deriving DecidableEq

namespace Split

variable {α : Type} [Scalar α]

/-- Nothing for anyone. -/
def none : Split α :=
  ⟨Scalar.zero, Scalar.zero, Scalar.zero⟩

/-- Everything for blocks. -/
def blocksOnly : Split α :=
  ⟨Scalar.one, Scalar.zero, Scalar.zero⟩

instance : Inhabited (Split α) := ⟨none⟩

/-- The share that blocks always keep. -/
def blocksFloor : α :=
  Scalar.ofFraction 1 4

/-- The sum of the three amounts. -/
def total
    (split : Split α) :
    α :=
  split.blocks + split.bounties + split.contracts

/-- Profitabilities with losses counted as zero.  Where nothing but blocks is
left to mine, blocks count as one. -/
def clamped
    (profits : Split α) :
    Split α :=
  let bounties := Scalar.positivePart profits.bounties
  let contracts := Scalar.positivePart profits.contracts
  if Scalar.zero < bounties ∨ Scalar.zero < contracts then
    ⟨Scalar.positivePart profits.blocks, bounties, contracts⟩
  else ⟨Scalar.one, bounties, contracts⟩

/-- Amounts divided by their sum. -/
def normalized
    (amounts : Split α) :
    Split α :=
  let sum := amounts.total
  ⟨amounts.blocks / sum, amounts.bounties / sum, amounts.contracts / sum⟩

/-- Shares with blocks raised to their floor; the others keep their ratio. -/
def floored
    (shares : Split α) :
    Split α :=
  if shares.blocks < blocksFloor then
    let factor := (Scalar.one - blocksFloor) / (shares.bounties + shares.contracts)
    ⟨blocksFloor, shares.bounties * factor, shares.contracts * factor⟩
  else shares

/-- The shares of hashpower for given profitabilities. -/
def ideal
    (profits : Split α) :
    Split α :=
  profits.clamped.normalized.floored

/-- Shares of an amount of hashpower. -/
def assign
    (shares : Split α)
    (hashpower : α) :
    Split α :=
  ⟨shares.blocks * hashpower, shares.bounties * hashpower, shares.contracts * hashpower⟩

end Split

end WorkMarket
