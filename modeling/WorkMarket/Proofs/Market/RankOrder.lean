import WorkMarket.Proofs.Market.RankLookup

/-!
# Every ranking is ranked

Whatever outputs are pushed, added and removed, in exact arithmetic the entries
of a ranking stand by descending rate, every rate is the bounty for a unit of
difficulty, and every difficulty is positive.  `step_isRanked` says that one
operation keeps this, `run_isRanked` that any history does.
-/

namespace WorkMarket
namespace Ranking

variable {α : Type} [Scalar α]

/-- What can happen to a ranking. -/
inductive Operation where
  /-- An output is ranked. -/
  | push (output : Output)
  /-- An output is noted with a script that is ranked. -/
  | addOutput (output : Output)
  /-- A name is taken away. -/
  | remove (id : Digest)

/-- The ranking after something has happened. -/
def step
    (ranking : Ranking α) :
    Operation → Ranking α
  | .push output => ranking.push output
  | .addOutput output => (ranking.addOutput output).2
  | .remove id => (ranking.remove id).2

/-- The ranking after a history. -/
def run
    (ranking : Ranking α)
    (operations : List Operation) :
    Ranking α :=
  operations.foldl step ranking

end Ranking

/-- The figures of an entry fit together. -/
structure RankedBounty.IsPriced (entry : RankedBounty Rat) : Prop where
  difficulty_pos : 0 < entry.difficulty
  rate_eq : entry.rate = entry.bounty.toNat / entry.difficulty

/-- An entry made from an output with a valid target is priced. -/
theorem RankedBounty.isPriced_ofOutput
    (output : Output)
    {difficulty : Difficulty}
    (found : output.script.difficulty = .ok difficulty) :
    (RankedBounty.ofOutput (α := Rat) output difficulty).IsPriced where
  difficulty_pos := Target.view_difficulty_pos found
  rate_eq := rfl

namespace Ranking

/-- The entries stand by descending rate and each of them is priced. -/
structure IsRanked (ranking : Ranking Rat) : Prop where
  priced : ∀ entry ∈ ranking.entries, entry.IsPriced
  sorted : ranking.entries.Pairwise fun better worse => worse.rate ≤ better.rate

theorem isRanked_empty :
    (empty : Ranking Rat).IsRanked where
  priced := by simp [empty]
  sorted := List.Pairwise.nil

theorem IsRanked.addOutput
    {ranking : Ranking Rat}
    (ranked : ranking.IsRanked)
    (output : Output) :
    (ranking.addOutput output).2.IsRanked where
  priced := by simpa using ranked.priced
  sorted := by simpa using ranked.sorted

theorem IsRanked.push
    {ranking : Ranking Rat}
    (ranked : ranking.IsRanked)
    (output : Output) :
    (ranking.push output).IsRanked := by
  refine push_keeps output ranked (ranked.addOutput output) fun difficulty _ found enters => ?_
  constructor
  · intro entry present
    rcases (enters.mem_entries_iff entry).mp present with rfl | before
    · exact RankedBounty.isPriced_ofOutput output found
    · exact ranked.priced entry before
  · rw [enters.entries_eq]
    exact pairwise_insertRanked _ ranked.sorted

theorem IsRanked.remove
    {ranking : Ranking Rat}
    (ranked : ranking.IsRanked)
    (id : Digest) :
    (ranking.remove id).2.IsRanked where
  priced := fun entry present =>
    ranked.priced entry ((ranking.sublist_entries_remove id).subset present)
  sorted := ranked.sorted.sublist (ranking.sublist_entries_remove id)

/-- One operation keeps a ranking ranked. -/
theorem step_isRanked
    {ranking : Ranking Rat}
    (ranked : ranking.IsRanked)
    (operation : Operation) :
    (ranking.step operation).IsRanked := by
  cases operation with
  | push output => exact ranked.push output
  | addOutput output => exact ranked.addOutput output
  | remove id => exact ranked.remove id

/-- Whatever happened to it, a ranking is ranked. -/
theorem run_isRanked
    (operations : List Operation) :
    ((empty : Ranking Rat).run operations).IsRanked := by
  unfold run
  apply List.foldlRecOn operations step isRanked_empty
  intro ranking ranked operation _
  exact step_isRanked ranked operation

end Ranking
end WorkMarket
