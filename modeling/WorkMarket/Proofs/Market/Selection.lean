import Mathlib.Algebra.BigOperators.Group.List.Basic
import Mathlib.Algebra.Order.BigOperators.Group.List
import Mathlib.Data.List.TakeWhile
import Mathlib.Tactic.FieldSimp
import Mathlib.Tactic.Linarith
import Mathlib.Tactic.Positivity
import WorkMarket.Proofs.Market.RankOrder
import WorkMarket.Proofs.Number.ExactSums

/-!
# What the selection sees

The selection looks at the leading bounties that do not lose and stops at the
first that does.  It therefore misses nothing exactly if no worthwhile bounty
ranks behind a losing one.  Rank is by bounty for a unit of difficulty, so this
is so whenever there is no constant cost, or all difficulties are equal; a
constant cost weighs more on easy work, and then a hard bounty that pays can
rank behind an easy one that does not.
-/

namespace WorkMarket

/-- Costs that a configuration may have. -/
structure CostModel.IsAdmissible (costs : CostModel Rat) : Prop where
  perDifficulty_nonneg : 0 ≤ costs.perDifficulty
  constant_nonneg : 0 ≤ costs.constant
  not_free : costs.perDifficulty ≠ 0 ∨ costs.constant ≠ 0

namespace CostModel

theorem cost_eq
    (costs : CostModel Rat)
    (difficulty : Rat) :
    costs.cost difficulty = costs.constant + costs.perDifficulty * difficulty :=
  rfl

/-- Work of some difficulty has a positive cost. -/
theorem IsAdmissible.cost_pos
    {costs : CostModel Rat}
    (admissible : costs.IsAdmissible)
    {difficulty : Rat}
    (positive : 0 < difficulty) :
    0 < costs.cost difficulty := by
  have constant := admissible.constant_nonneg
  have perDifficulty := admissible.perDifficulty_nonneg
  rw [cost_eq]
  rcases admissible.not_free with charged | charged
  · have strict : 0 < costs.perDifficulty := lt_of_le_of_ne perDifficulty charged.symm
    have product := mul_pos strict positive
    linarith
  · have strict : 0 < costs.constant := lt_of_le_of_ne constant charged.symm
    have product := mul_nonneg perDifficulty positive.le
    linarith

end CostModel

namespace RankedBounty

/-- Whether the work does not lose. -/
def isWorthwhile
    {α : Type}
    [Scalar α]
    (costs : CostModel α)
    (entry : RankedBounty α) :
    Bool :=
  (entry.profitability? costs).any fun gain => Scalar.zero ≤ gain

/-- With admissible costs every priced entry has a profitability. -/
theorem IsPriced.profitability?_eq
    {entry : RankedBounty Rat}
    (priced : entry.IsPriced)
    {costs : CostModel Rat}
    (admissible : costs.IsAdmissible) :
    entry.profitability? costs =
      some ((entry.bounty.toNat - costs.cost entry.difficulty) /
        costs.cost entry.difficulty) :=
  if_neg (not_le.mpr (admissible.cost_pos priced.difficulty_pos))

/-- Work does not lose exactly if the bounty covers the cost. -/
theorem IsPriced.isWorthwhile_iff
    {entry : RankedBounty Rat}
    (priced : entry.IsPriced)
    {costs : CostModel Rat}
    (admissible : costs.IsAdmissible) :
    entry.isWorthwhile costs = true ↔
      costs.cost entry.difficulty ≤ (entry.bounty.toNat : Rat) := by
  have positive := admissible.cost_pos priced.difficulty_pos
  rw [isWorthwhile, priced.profitability?_eq admissible, Option.any_some, decide_eq_true_iff]
  change (0 : Rat) ≤ _ ↔ _
  rw [le_div_iff₀ positive, zero_mul, sub_nonneg]

/-- Work does not lose exactly if its rate covers the cost of a unit, to which
the constant cost adds the more the easier the work is. -/
theorem IsPriced.isWorthwhile_iff_rate
    {entry : RankedBounty Rat}
    (priced : entry.IsPriced)
    {costs : CostModel Rat}
    (admissible : costs.IsAdmissible) :
    entry.isWorthwhile costs = true ↔
      costs.constant / entry.difficulty + costs.perDifficulty ≤ entry.rate := by
  have positive := priced.difficulty_pos
  have unit : costs.constant / entry.difficulty + costs.perDifficulty =
      costs.cost entry.difficulty / entry.difficulty := by
    rw [CostModel.cost_eq]
    field_simp
  rw [priced.isWorthwhile_iff admissible, priced.rate_eq, unit,
    div_le_div_iff_of_pos_right positive]

end RankedBounty

namespace Ranking

section Candidates

variable {α : Type} [Scalar α]

/-- The candidates are the leading bounties that do not lose. -/
theorem map_fst_profitable
    (costs : CostModel α)
    (entries : List (RankedBounty α)) :
    (profitable costs entries).map Prod.fst =
      entries.takeWhile (RankedBounty.isWorthwhile costs) := by
  induction entries with
  | nil => rfl
  | cons entry rest inductionHypothesis =>
      unfold profitable
      cases found : entry.profitability? costs with
      | none => simp [RankedBounty.isWorthwhile, found]
      | some gain =>
          by_cases positive : Scalar.zero ≤ gain <;>
            simp [RankedBounty.isWorthwhile, found, positive, inductionHypothesis]

/-- A candidate comes with its profitability, which is not negative. -/
theorem profitability?_of_mem_profitable
    {costs : CostModel α}
    {entries : List (RankedBounty α)}
    {candidate : RankedBounty α × α}
    (present : candidate ∈ profitable costs entries) :
    candidate.1.profitability? costs = some candidate.2 ∧ Scalar.zero ≤ candidate.2 := by
  induction entries with
  | nil => contradiction
  | cons entry rest inductionHypothesis =>
      unfold profitable at present
      split at present
      · contradiction
      · rename_i gain found
        split at present
        · rename_i nonnegative
          rcases List.mem_cons.mp present with rfl | inRest
          · exact ⟨found, nonnegative⟩
          · exact inductionHypothesis inRest
        · contradiction

/-- There is a running total for each weight. -/
theorem length_runningTotals
    (total : α)
    (weights : List α) :
    (runningTotals total weights).length = weights.length := by
  induction weights generalizing total with
  | nil => rfl
  | cons weight rest inductionHypothesis => simp [runningTotals, inductionHypothesis]

/-- A position that is drawn holds one of the weights. -/
theorem lt_length_of_drawPosition?
    {weights : List α}
    {draw : α}
    {position : Nat}
    (drawn : drawPosition? weights draw = some position) :
    position < weights.length := by
  unfold drawPosition? at drawn
  simp only at drawn
  split at drawn
  · contradiction
  · rename_i total last
    split at drawn
    · contradiction
    · have nonempty : 0 < (runningTotals Scalar.zero weights).length :=
        List.length_pos_iff.mpr (by rintro empty; simp [empty] at last)
      obtain rfl := Option.some.inj drawn
      rw [← length_runningTotals Scalar.zero weights]
      cases found : (runningTotals Scalar.zero weights).findIdx? _ with
      | none => exact Nat.sub_one_lt_of_lt nonempty
      | some index => exact (List.findIdx?_eq_some_iff_getElem.mp found).1

/-- The candidates are the entries at the same positions. -/
theorem getElem?_entries_of_lt
    {costs : CostModel α}
    {entries : List (RankedBounty α)}
    {position : Nat}
    (inside : position < (profitable costs entries).length) :
    entries[position]? = some ((profitable costs entries)[position]).1 := by
  have leading : (profitable costs entries).map Prod.fst <+: entries := by
    rw [map_fst_profitable]
    exact List.takeWhile_prefix _
  have inLeading : position < ((profitable costs entries).map Prod.fst).length := by
    simpa using inside
  have same := leading.getElem inLeading
  rw [List.getElem_map] at same
  rw [same, List.getElem?_eq_getElem]

/-- A draw falls among the candidates, so the entry that is looked up in the whole
ranking is the candidate at the position. -/
theorem select?_eq
    (ranking : Ranking α)
    (costs : CostModel α)
    (draw : α) :
    ranking.select? costs draw =
      (drawPosition? ((profitable costs ranking.entries).map Prod.snd) draw).bind fun position =>
        (profitable costs ranking.entries)[position]?.map fun candidate => candidate.1.script := by
  unfold select?
  cases drawn : drawPosition? ((profitable costs ranking.entries).map Prod.snd) draw with
  | none => rfl
  | some position =>
      have inside := lt_length_of_drawPosition? drawn
      rw [List.length_map] at inside
      rw [Option.bind_some, Option.bind_some, getElem?_entries_of_lt inside,
        List.getElem?_eq_getElem inside]
      rfl

/-- A script is selected exactly if a position is drawn. -/
theorem isSome_select?
    (ranking : Ranking α)
    (costs : CostModel α)
    (draw : α) :
    (ranking.select? costs draw).isSome =
      (drawPosition? ((profitable costs ranking.entries).map Prod.snd) draw).isSome := by
  rw [select?_eq]
  cases drawn : drawPosition? ((profitable costs ranking.entries).map Prod.snd) draw with
  | none => rfl
  | some position =>
      have inside := lt_length_of_drawPosition? drawn
      rw [List.length_map] at inside
      simp [List.getElem?_eq_getElem inside]

end Candidates

/-! ## Exact sums -/

/-- The last of the running totals is the whole total. -/
theorem getLast?_runningTotals
    (total weight : Rat)
    (rest : List Rat) :
    (runningTotals total (weight :: rest)).getLast? = some (total + (weight :: rest).sum) := by
  induction rest generalizing total weight with
  | nil => simp [runningTotals]
  | cons next rest inductionHypothesis =>
      have later := inductionHypothesis (total + weight) next
      rw [runningTotals, runningTotals, List.getLast?_cons_cons, ← runningTotals, later,
        List.sum_cons (a := weight), add_assoc]

/-- Nothing is drawn where there is no weight.  Otherwise the scan looks for the
first running total beyond the point of the draw, and falls back to the last. -/
theorem drawPosition?_eq
    (weights : List Rat)
    (draw : Rat) :
    drawPosition? weights draw =
      if weights.sum ≤ 0 then none
      else some (((runningTotals 0 weights).findIdx? fun running =>
        Scalar.clamp Scalar.zero Scalar.largestDraw draw * weights.sum < running).getD
          (weights.length - 1)) := by
  cases weights with
  | nil => rfl
  | cons weight rest =>
      have whole : (Scalar.zero : Rat) + (weight :: rest).sum = (weight :: rest).sum :=
        zero_add _
      unfold drawPosition?
      simp only [getLast?_runningTotals, whole, length_runningTotals]
      rfl

/-- Something is drawn exactly if some weight is positive. -/
theorem isSome_drawPosition?_iff
    (weights : List Rat)
    (nonnegative : ∀ weight ∈ weights, 0 ≤ weight)
    (draw : Rat) :
    (drawPosition? weights draw).isSome = true ↔ ∃ weight ∈ weights, 0 < weight := by
  have positiveSum : 0 < weights.sum ↔ ∃ weight ∈ weights, 0 < weight := by
    constructor
    · intro positive
      exact List.exists_lt_of_sum_lt (fun _ => 0) id (by simpa using positive)
    · rintro ⟨weight, present, positive⟩
      exact lt_of_lt_of_le positive (List.single_le_sum nonnegative weight present)
  rw [← positiveSum, drawPosition?_eq]
  split
  · rename_i nothing
    simpa using nothing
  · rename_i something
    simpa using something

/-! ## When nothing is missed -/

/-- No worthwhile bounty ranks behind a losing one. -/
def IsAligned
    (ranking : Ranking Rat)
    (costs : CostModel Rat) :
    Prop :=
  ranking.entries.Pairwise fun before behind =>
    behind.isWorthwhile costs = true → before.isWorthwhile costs = true

/-- Every draw finds a script if any bounty gains, and the profitable difficulty
counts every bounty that does not lose, wherever they rank. -/
structure MissesNothing
    (ranking : Ranking Rat)
    (costs : CostModel Rat) :
    Prop where
  isSome_select? : ∀ draw, 0 ≤ draw → draw < 1 →
    (∃ entry ∈ ranking.entries, ∃ gain, entry.profitability? costs = some gain ∧ 0 < gain) →
      (ranking.select? costs draw).isSome = true
  profitableDifficulty_eq : ranking.profitableDifficulty costs =
    ((ranking.entries.filter (RankedBounty.isWorthwhile costs)).map RankedBounty.difficulty).sum

/-- The profitable difficulty is that of the leading bounties that do not
lose. -/
theorem profitableDifficulty_eq_takeWhile
    (ranking : Ranking Rat)
    (costs : CostModel Rat) :
    ranking.profitableDifficulty costs =
      ((ranking.entries.takeWhile (RankedBounty.isWorthwhile costs)).map
        RankedBounty.difficulty).sum := by
  unfold profitableDifficulty
  rw [scalarSum_eq, ← map_fst_profitable, List.map_map]
  rfl

/-- A draw finds a script exactly if one of the leading bounties that do not lose
gains. -/
theorem isSome_select?_iff
    (ranking : Ranking Rat)
    (costs : CostModel Rat)
    (draw : Rat) :
    (ranking.select? costs draw).isSome = true ↔
      ∃ entry ∈ ranking.entries.takeWhile (RankedBounty.isWorthwhile costs),
        ∃ gain, entry.profitability? costs = some gain ∧ 0 < gain := by
  have nonnegative : ∀ gain ∈ (profitable costs ranking.entries).map Prod.snd, 0 ≤ gain := by
    intro gain present
    obtain ⟨candidate, isCandidate, rfl⟩ := List.mem_map.mp present
    exact (profitability?_of_mem_profitable isCandidate).2
  rw [isSome_select?, isSome_drawPosition?_iff _ nonnegative, ← map_fst_profitable]
  constructor
  · rintro ⟨gain, present, positive⟩
    obtain ⟨candidate, isCandidate, rfl⟩ := List.mem_map.mp present
    exact ⟨candidate.1, List.mem_map_of_mem isCandidate, candidate.2,
      (profitability?_of_mem_profitable isCandidate).1, positive⟩
  · rintro ⟨entry, present, gain, found, positive⟩
    obtain ⟨candidate, isCandidate, rfl⟩ := List.mem_map.mp present
    have known := (profitability?_of_mem_profitable isCandidate).1
    obtain rfl : candidate.2 = gain := Option.some.inj (known.symm.trans found)
    exact ⟨candidate.2, List.mem_map_of_mem isCandidate, positive⟩

/-- Nothing is missed exactly if no worthwhile bounty ranks behind a losing
one. -/
theorem IsRanked.missesNothing_iff_isAligned
    {ranking : Ranking Rat}
    (ranked : ranking.IsRanked)
    (costs : CostModel Rat) :
    ranking.MissesNothing costs ↔ ranking.IsAligned costs := by
  let hidden := (ranking.entries.dropWhile (RankedBounty.isWorthwhile costs)).filter
    (RankedBounty.isWorthwhile costs)
  have hiddenPositive : ∀ difficulty ∈ hidden.map RankedBounty.difficulty, 0 < difficulty := by
    intro difficulty present
    obtain ⟨entry, inHidden, rfl⟩ := List.mem_map.mp present
    have inRanking : entry ∈ ranking.entries :=
      (List.dropWhile_sublist _).mem (List.mem_of_mem_filter inHidden)
    exact (ranked.priced entry inRanking).difficulty_pos
  have whole := filter_eq_takeWhile_append (RankedBounty.isWorthwhile costs) ranking.entries
  unfold IsAligned
  rw [← filter_dropWhile_eq_nil_iff]
  constructor
  · intro complete
    have counted := complete.profitableDifficulty_eq
    rw [profitableDifficulty_eq_takeWhile, whole, List.map_append, List.sum_append,
      left_eq_add] at counted
    by_contra something
    have nonempty : hidden.map RankedBounty.difficulty ≠ [] := by
      simpa [hidden] using something
    exact absurd counted (List.sum_pos _ hiddenPositive nonempty).ne'
  · intro none
    rw [none, List.append_nil] at whole
    constructor
    · rintro draw _ _ ⟨entry, present, gain, found, positive⟩
      rw [isSome_select?_iff, ← whole]
      refine ⟨entry, List.mem_filter.mpr ⟨present, ?_⟩, gain, found, positive⟩
      rw [RankedBounty.isWorthwhile, found, Option.any_some, decide_eq_true_iff]
      exact positive.le
    · rw [profitableDifficulty_eq_takeWhile, whole]

/-- Without a constant cost the rate alone decides, so rank and worth agree. -/
theorem IsRanked.isAligned_of_constant_eq_zero
    {ranking : Ranking Rat}
    (ranked : ranking.IsRanked)
    {costs : CostModel Rat}
    (admissible : costs.IsAdmissible)
    (free : costs.constant = 0) :
    ranking.IsAligned costs := by
  apply ranked.sorted.imp_of_mem
  intro before behind beforeIn behindIn ordered worthwhile
  rw [(ranked.priced _ behindIn).isWorthwhile_iff_rate admissible, free, zero_div] at worthwhile
  rw [(ranked.priced _ beforeIn).isWorthwhile_iff_rate admissible, free, zero_div]
  exact le_trans worthwhile ordered

/-- For work of one difficulty the constant cost is the same in every unit, so
rank and worth agree. -/
theorem IsRanked.isAligned_of_difficulty_eq
    {ranking : Ranking Rat}
    (ranked : ranking.IsRanked)
    {costs : CostModel Rat}
    (admissible : costs.IsAdmissible)
    (difficulty : Rat)
    (equal : ∀ entry ∈ ranking.entries, entry.difficulty = difficulty) :
    ranking.IsAligned costs := by
  apply ranked.sorted.imp_of_mem
  intro before behind beforeIn behindIn ordered worthwhile
  rw [(ranked.priced _ behindIn).isWorthwhile_iff_rate admissible, equal _ behindIn] at worthwhile
  rw [(ranked.priced _ beforeIn).isWorthwhile_iff_rate admissible, equal _ beforeIn]
  exact le_trans worthwhile ordered

/-- Whatever happened to a ranking, and at all admissible costs, selection misses
nothing exactly if no worthwhile bounty ranks behind a losing one.  That is
always so where there is no constant cost, and where all difficulties are
equal. -/
theorem missesNothing_iff_no_worthwhile_behind_losing
    (operations : List Operation)
    (costs : CostModel Rat)
    (admissible : costs.IsAdmissible) :
    (((empty : Ranking Rat).run operations).MissesNothing costs ↔
        ((empty : Ranking Rat).run operations).IsAligned costs) ∧
      (costs.constant = 0 → ((empty : Ranking Rat).run operations).MissesNothing costs) ∧
      ∀ difficulty : Rat,
        (∀ entry ∈ ((empty : Ranking Rat).run operations).entries,
          entry.difficulty = difficulty) →
        ((empty : Ranking Rat).run operations).MissesNothing costs := by
  have ranked := run_isRanked operations
  have exactly := ranked.missesNothing_iff_isAligned costs
  refine ⟨exactly, ?_, ?_⟩
  · intro free
    exact exactly.mpr (ranked.isAligned_of_constant_eq_zero admissible free)
  · intro difficulty equal
    exact exactly.mpr (ranked.isAligned_of_difficulty_eq admissible difficulty equal)

/-- An easy bounty that pays fifty. -/
def easyBounty : Output :=
  .ofScript ⟨.filled 32 1, 0⟩ (.bounty 0 (.filled 32 0x11) ⟨0x1d00ffff⟩ [] 1 []) 50

/-- A bounty of two hundred and fifty-six times the difficulty that pays a
thousand. -/
def hardBounty : Output :=
  .ofScript ⟨.filled 32 2, 0⟩ (.bounty 0 (.filled 32 0x11) ⟨0x1c00ffff⟩ [] 2 []) 1000

/-- Without a constant cost the two bounties stand in the order of their worth,
so nothing is missed. -/
theorem missesNothing_two_bounties :
    (⟨3, 0⟩ : CostModel Rat).IsAdmissible ∧
      ((empty : Ranking Rat).run [.push easyBounty, .push hardBounty]).MissesNothing ⟨3, 0⟩ :=
  have admissible : (⟨3, 0⟩ : CostModel Rat).IsAdmissible :=
    ⟨by decide, by decide, .inl (by decide)⟩
  ⟨admissible,
    (missesNothing_iff_no_worthwhile_behind_losing
      [.push easyBounty, .push hardBounty] ⟨3, 0⟩ admissible).2.1 rfl⟩

/-- At a constant cost of a hundred the easy bounty loses and the hard one gains.
The easy one ranks first, so the draw finds nothing. -/
theorem not_missesNothing_two_bounties :
    ¬((empty : Ranking Rat).run [.push easyBounty, .push hardBounty]).MissesNothing
      ⟨0, 100⟩ := by
  intro complete
  have gains : ∃ entry ∈
      ((empty : Ranking Rat).run [.push easyBounty, .push hardBounty]).entries,
      (entry.profitability? ⟨0, 100⟩).any (fun gain => decide (0 < gain)) = true := by
    decide +kernel
  obtain ⟨entry, present, gains⟩ := gains
  obtain ⟨gain, found, positive⟩ := (Option.any_eq_true _ _).mp gains
  have selected := complete.isSome_select? 0 (by decide) (by decide)
    ⟨entry, present, gain, found, of_decide_eq_true positive⟩
  exact absurd selected (by decide +kernel)

end Ranking
end WorkMarket
