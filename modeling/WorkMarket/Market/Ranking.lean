import WorkMarket.Market.Keyed
import WorkMarket.Market.Output
import WorkMarket.Number.Scalar

/-!
# Ranked bounties

Bounties are ranked by what they pay for a unit of difficulty, ties in order
of arrival.  Several outputs may carry one script; they share an entry, whose
rank and difficulty are those of the first.  The entries are a list, in which
the place of a new one is found by bisection; the outputs of each script are
recorded in a map beside it.  A bounty is worked on only if it pays more than
the work costs; among those that do, one is drawn with a weight in proportion to
its profitability.
-/

namespace WorkMarket

/-- What work costs: a constant and an amount for each unit of difficulty. -/
structure CostModel (α : Type) where
  perDifficulty : α
  constant : α
deriving DecidableEq

namespace CostModel

variable {α : Type} [Scalar α]

/-- The cost of work of some difficulty. -/
def cost
    (costs : CostModel α)
    (difficulty : α) :
    α :=
  costs.constant + costs.perDifficulty * difficulty

/-- The gain in units of the cost; undefined unless the cost is positive. -/
def profitability?
    (costs : CostModel α)
    (bounty : UInt64)
    (difficulty : α) :
    Option α :=
  let cost := costs.cost difficulty
  if cost ≤ Scalar.zero then none else some ((Scalar.ofNat bounty.toNat - cost) / cost)

end CostModel

/-- A bounty in the ranking. -/
structure RankedBounty (α : Type) where
  script : LockingScript
  /-- What the first output pays. -/
  bounty : UInt64
  difficulty : α
  /-- The bounty for a unit of difficulty. -/
  rate : α
  id : Digest
deriving DecidableEq

namespace RankedBounty

variable {α : Type} [Scalar α]

/-- The entry of an output that is the first to carry its script. -/
def ofOutput
    (output : Output)
    (difficulty : Difficulty) :
    RankedBounty α :=
  let difficulty := difficulty.view α
  ⟨output.script, output.value, difficulty, Scalar.ofNat output.value.toNat / difficulty,
    output.id⟩

/-- What the work costs. -/
def cost
    (entry : RankedBounty α)
    (costs : CostModel α) :
    α :=
  costs.cost entry.difficulty

/-- The gain in units of the cost. -/
def profitability?
    (entry : RankedBounty α)
    (costs : CostModel α) :
    Option α :=
  costs.profitability? entry.bounty entry.difficulty

end RankedBounty

/-- The bounties by rank, and the outputs that pay them. -/
structure Ranking (α : Type) where
  /-- The best rate first. -/
  entries : List (RankedBounty α)
  /-- The outputs that carry each ranked script, in order of arrival. -/
  recorded : Keyed Digest (List Outpoint)
  /-- The sum of the difficulties, kept as bounties come and go. -/
  difficulty : α
deriving DecidableEq

namespace Ranking

variable {α : Type} [Scalar α]

/-- No bounties. -/
def empty : Ranking α :=
  ⟨[], Keyed.empty, Scalar.zero⟩

instance : Inhabited (Ranking α) := ⟨empty⟩

/-- The names in order of rank. -/
def ids
    (ranking : Ranking α) :
    List Digest :=
  ranking.entries.map RankedBounty.id

/-- The entry of a name. -/
def get?
    (ranking : Ranking α)
    (id : Digest) :
    Option (RankedBounty α) :=
  ranking.entries.find? fun entry => entry.id = id

/-- Whether outputs are recorded for a name. -/
def contains
    (ranking : Ranking α)
    (id : Digest) :
    Bool :=
  ranking.recorded.contains id

/-- The outputs recorded for a name. -/
def outpoints
    (ranking : Ranking α)
    (id : Digest) :
    List Outpoint :=
  (ranking.recorded.get? id).getD []

/-- Outputs with another at the end, unless it is among them. -/
def withOutpoint
    (outpoints : List Outpoint)
    (outpoint : Outpoint) :
    List Outpoint :=
  if outpoints.contains outpoint then outpoints else outpoints ++ [outpoint]

/-- Note another output of a script that is ranked; the answer is whether it
is. -/
def addOutput
    (ranking : Ranking α)
    (output : Output) :
    Bool × Ranking α :=
  match ranking.recorded.get? output.id with
  | none => (false, ranking)
  | some outpoints =>
      let noted := withOutpoint outpoints output.outpoint
      (true, { ranking with recorded := ranking.recorded.put output.id noted })

/-- The first place between two bounds whose value a predicate refuses, if it
accepts everything ahead of that place and nothing behind it. -/
def bisect
    {β : Type}
    (accepts : β → Bool)
    (values : List β)
    (low high : Nat) :
    Nat :=
  if low < high then
    let middle := low + (high - low) / 2
    if values[middle]?.any accepts then bisect accepts values (middle + 1) high
    else bisect accepts values low middle
  else low
termination_by high - low

/-- How many of the leading values a predicate accepts. -/
def partitionPoint
    {β : Type}
    (accepts : β → Bool)
    (values : List β) :
    Nat :=
  bisect accepts values 0 values.length

/-- Put an entry behind all that pay at least as well. -/
def insertRanked
    (entry : RankedBounty α)
    (entries : List (RankedBounty α)) :
    List (RankedBounty α) :=
  entries.insertIdx (partitionPoint (fun other => entry.rate ≤ other.rate) entries) entry

/-- Rank an output.  What is no bounty with a valid target is ignored. -/
def push
    (ranking : Ranking α)
    (output : Output) :
    Ranking α :=
  if output.script.kind = .bounty then
    match ranking.addOutput output with
    | (true, added) => added
    | (false, _) =>
        match output.script.difficulty with
        | .error _ => ranking
        | .ok difficulty =>
            let entry := RankedBounty.ofOutput output difficulty
            ⟨insertRanked entry ranking.entries,
              ranking.recorded.put output.id [output.outpoint],
              ranking.difficulty + entry.difficulty⟩
  else ranking

/-- Take a name away; the answer is the list of its outputs.  An empty ranking
has no difficulty, whatever was rounded before. -/
def remove
    (ranking : Ranking α)
    (id : Digest) :
    List Outpoint × Ranking α :=
  match ranking.recorded.get? id with
  | none => ([], ranking)
  | some outpoints =>
      let forgotten := { ranking with recorded := ranking.recorded.erase id }
      match ranking.get? id with
      | none => (outpoints, forgotten)
      | some entry =>
          let entries := ranking.entries.eraseP fun other => other.id = id
          let difficulty :=
            if entries.isEmpty then Scalar.zero else ranking.difficulty - entry.difficulty
          (outpoints, { forgotten with entries := entries, difficulty := difficulty })

/-- The leading entries that do not lose, with their profitabilities. -/
def profitable
    (costs : CostModel α) :
    List (RankedBounty α) → List (RankedBounty α × α)
  | [] => []
  | entry :: rest =>
      match entry.profitability? costs with
      | none => []
      | some profitability =>
          if Scalar.zero ≤ profitability then (entry, profitability) :: profitable costs rest
          else []

/-- The difficulty of the bounties worth working on. -/
def profitableDifficulty
    (ranking : Ranking α)
    (costs : CostModel α) :
    α :=
  Scalar.sum ((profitable costs ranking.entries).map fun entry => entry.1.difficulty)

/-- Each weight together with all before it. -/
def runningTotals
    (total : α) :
    List α → List α
  | [] => []
  | weight :: rest => (total + weight) :: runningTotals (total + weight) rest

/-- The position that a draw from the interval between zero and one falls on,
where each position has a stretch as long as its weight. -/
def drawPosition?
    (weights : List α)
    (draw : α) :
    Option Nat :=
  let totals := runningTotals Scalar.zero weights
  match totals.getLast? with
  | none => none
  | some total =>
      if total ≤ Scalar.zero then none
      else
        let point := Scalar.clamp Scalar.zero Scalar.largestDraw draw * total
        some ((totals.findIdx? fun running => point < running).getD (totals.length - 1))

/-- Draw a script that pays, weighted by profitability. -/
def select?
    (ranking : Ranking α)
    (costs : CostModel α)
    (draw : α) :
    Option LockingScript :=
  (drawPosition? ((profitable costs ranking.entries).map Prod.snd) draw).bind fun position =>
    ranking.entries[position]?.map RankedBounty.script

end Ranking

end WorkMarket
