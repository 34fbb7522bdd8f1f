import Mathlib.Algebra.Order.BigOperators.Group.List
import Mathlib.Tactic.Linarith
import Mathlib.Tactic.NormNum
import WorkMarket.Proofs.Market.Selection

/-!
# Where a draw falls

The leading bounties that do not lose are laid end to end, each with a stretch as
long as its profitability.  A draw is a share of the whole length, and falls on
the bounty whose stretch holds that point.  Stretches do not overlap and leave no
gap, so there is one such bounty, and it has a stretch at all: a bounty that just
covers its cost is never drawn.
-/

namespace WorkMarket
namespace Ranking

section Totals

variable {values : List Rat}

/-- A running total is the sum of the values up to it. -/
theorem getElem_runningTotals
    (total : Rat)
    (values : List Rat)
    (position : Nat)
    (inside : position < (runningTotals total values).length) :
    (runningTotals total values)[position] = total + (values.take (position + 1)).sum := by
  induction values generalizing total position with
  | nil => exact absurd inside (Nat.not_lt_zero _)
  | cons value rest inductionHypothesis =>
      cases position with
      | zero => simp [runningTotals]
      | succ position =>
          rw [List.take_succ_cons, List.sum_cons, ← add_assoc]
          exact inductionHypothesis (total + value) position (Nat.lt_of_succ_lt_succ inside)

/-- Values that are not negative add up to more the more of them there are. -/
theorem sum_take_le_sum_take
    (nonnegative : ∀ value ∈ values, 0 ≤ value)
    {fewer more : Nat}
    (le : fewer ≤ more) :
    (values.take fewer).sum ≤ (values.take more).sum :=
  List.Sublist.sum_le_sum (List.take_prefix_take_left le).sublist fun value present =>
    nonnegative value (List.mem_of_mem_take present)

/-- A position is the first whose running total is beyond a point exactly if the
point lies between the sums before and behind the position. -/
theorem findIdx?_runningTotals_eq_some_iff
    (nonnegative : ∀ value ∈ values, 0 ≤ value)
    {point : Rat}
    (pointNonnegative : 0 ≤ point)
    (position : Nat) :
    (runningTotals 0 values).findIdx? (fun running => point < running) = some position ↔
      (values.take position).sum ≤ point ∧ point < (values.take (position + 1)).sum := by
  rw [List.findIdx?_eq_some_iff_getElem]
  simp only [getElem_runningTotals, length_runningTotals, zero_add, decide_eq_true_eq]
  constructor
  · rintro ⟨_, beyond, first⟩
    refine ⟨?_, beyond⟩
    cases position with
    | zero => exact pointNonnegative
    | succ position => exact not_lt.mp (first position (Nat.lt_succ_self position))
  · rintro ⟨reached, beyond⟩
    have inside : position < values.length := by
      by_contra outside
      have whole := not_lt.mp outside
      rw [List.take_of_length_le whole] at reached
      rw [List.take_of_length_le (whole.trans (Nat.le_succ position))] at beyond
      exact absurd beyond (not_lt.mpr reached)
    refine ⟨inside, beyond, fun earlier before => not_lt.mpr ?_⟩
    exact (sum_take_le_sum_take nonnegative before).trans reached

/-- Some running total is beyond a point before the end. -/
theorem isSome_findIdx?_runningTotals
    {point : Rat}
    (nonempty : values ≠ [])
    (inside : point < values.sum) :
    ((runningTotals 0 values).findIdx? fun running => point < running).isSome = true := by
  obtain ⟨value, rest, rfl⟩ := List.exists_cons_of_ne_nil nonempty
  rw [List.findIdx?_isSome, List.any_eq_true]
  refine ⟨0 + (value :: rest).sum, List.mem_of_getLast? (getLast?_runningTotals 0 value rest), ?_⟩
  rw [zero_add]
  exact decide_eq_true inside

end Totals

/-- The stretches: the profitabilities of the leading bounties that do not
lose. -/
def weights
    (ranking : Ranking Rat)
    (costs : CostModel Rat) :
    List Rat :=
  (ranking.entries.takeWhile (RankedBounty.isWorthwhile costs)).filterMap fun entry =>
    entry.profitability? costs

/-- The length of all stretches. -/
def totalWeight
    (ranking : Ranking Rat)
    (costs : CostModel Rat) :
    Rat :=
  (ranking.weights costs).sum

/-- The point that a draw stands for.  A draw below zero counts as zero, and one
beyond the last double before one as that double. -/
def drawnPoint
    (ranking : Ranking Rat)
    (costs : CostModel Rat)
    (draw : Rat) :
    Rat :=
  max 0 (min draw (1 - 1 / 2 ^ 52)) * ranking.totalWeight costs

/-- Whether a draw falls on the stretch of a position: its point is not before
the end of the stretches ahead, and before the end of the stretch itself. -/
def FallsOn
    (ranking : Ranking Rat)
    (costs : CostModel Rat)
    (draw : Rat)
    (position : Nat) : Prop :=
  ((ranking.weights costs).take position).sum ≤ ranking.drawnPoint costs draw ∧
    ranking.drawnPoint costs draw < ((ranking.weights costs).take (position + 1)).sum

section Weights

variable (ranking : Ranking Rat) (costs : CostModel Rat)

/-- Each candidate comes with its weight. -/
theorem map_snd_profitable :
    (profitable costs ranking.entries).map Prod.snd = ranking.weights costs := by
  unfold weights
  generalize ranking.entries = entries
  induction entries with
  | nil => rfl
  | cons entry rest inductionHypothesis =>
      unfold profitable
      cases found : entry.profitability? costs with
      | none => simp [RankedBounty.isWorthwhile, found]
      | some gain =>
          by_cases nonnegative : Scalar.zero ≤ gain <;>
            simp [RankedBounty.isWorthwhile, found, nonnegative, inductionHypothesis]

theorem weights_nonneg :
    ∀ weight ∈ ranking.weights costs, 0 ≤ weight := by
  intro weight present
  rw [← map_snd_profitable] at present
  obtain ⟨candidate, isCandidate, rfl⟩ := List.mem_map.mp present
  exact (profitability?_of_mem_profitable isCandidate).2

theorem totalWeight_nonneg :
    0 ≤ ranking.totalWeight costs :=
  List.sum_nonneg (ranking.weights_nonneg costs)

theorem drawnPoint_nonneg
    (draw : Rat) :
    0 ≤ ranking.drawnPoint costs draw :=
  mul_nonneg (le_max_left _ _) (ranking.totalWeight_nonneg costs)

/-- A draw stands for a point before the end. -/
theorem drawnPoint_lt_totalWeight
    (positive : 0 < ranking.totalWeight costs)
    (draw : Rat) :
    ranking.drawnPoint costs draw < ranking.totalWeight costs := by
  have share : max 0 (min draw (1 - 1 / 2 ^ 52)) < (1 : Rat) :=
    max_lt one_pos ((min_le_right _ _).trans_lt (by norm_num))
  calc ranking.drawnPoint costs draw
      < 1 * ranking.totalWeight costs := mul_lt_mul_of_pos_right share positive
    _ = ranking.totalWeight costs := one_mul _

/-- A larger draw stands for a point no earlier. -/
theorem drawnPoint_mono
    {draw later : Rat}
    (le : draw ≤ later) :
    ranking.drawnPoint costs draw ≤ ranking.drawnPoint costs later :=
  mul_le_mul_of_nonneg_right (max_le_max_left 0 (min_le_min_right _ le))
    (ranking.totalWeight_nonneg costs)

/-- A draw is moved into the interval from zero up to the last double before
one. -/
theorem clamp_largestDraw
    (draw : Rat) :
    Scalar.clamp Scalar.zero Scalar.largestDraw draw = max 0 (min draw (1 - 1 / 2 ^ 52)) := by
  have largest : (Scalar.largestDraw : Rat) = 1 - 1 / 2 ^ 52 := by
    change ((1 : Nat) : Rat) - ((1 : Nat) : Rat) / ((0x10000000000000 : Nat) : Rat) = _
    norm_num
  have positive : (0 : Rat) ≤ 1 - 1 / 2 ^ 52 := by norm_num
  rw [Scalar.clamp, largest]
  change (if draw < 0 then 0 else _) = _
  split_ifs with negative large
  · rw [min_eq_left (negative.le.trans positive), max_eq_left negative.le]
  · rw [min_eq_right large.le, max_eq_right positive]
  · rw [min_eq_left (not_lt.mp large), max_eq_right (not_lt.mp negative)]

/-- Where there is weight, the scan for the point of a draw finds a position. -/
theorem isSome_findIdx?_drawnPoint
    (positive : 0 < ranking.totalWeight costs)
    (draw : Rat) :
    ((runningTotals 0 (ranking.weights costs)).findIdx?
      fun running => ranking.drawnPoint costs draw < running).isSome = true := by
  refine isSome_findIdx?_runningTotals ?_ (ranking.drawnPoint_lt_totalWeight costs positive draw)
  intro empty
  rw [totalWeight, empty] at positive
  exact absurd positive (lt_irrefl 0)

/-- The position that is drawn is the one that the scan finds. -/
theorem drawPosition?_weights
    (draw : Rat) :
    drawPosition? (ranking.weights costs) draw =
      if ranking.totalWeight costs ≤ 0 then none
      else (runningTotals 0 (ranking.weights costs)).findIdx?
        fun running => ranking.drawnPoint costs draw < running := by
  rw [drawPosition?_eq, clamp_largestDraw]
  change (if ranking.totalWeight costs ≤ 0 then none
    else some (((runningTotals 0 (ranking.weights costs)).findIdx?
      fun running => ranking.drawnPoint costs draw < running).getD _)) = _
  by_cases nothing : ranking.totalWeight costs ≤ 0
  · rw [if_pos nothing, if_pos nothing]
  · obtain ⟨position, found⟩ := Option.isSome_iff_exists.mp
      (ranking.isSome_findIdx?_drawnPoint costs (not_le.mp nothing) draw)
    rw [if_neg nothing, if_neg nothing, found, Option.getD_some]

/-- A draw falls on the position that is drawn. -/
theorem drawPosition?_weights_eq_some_iff
    (draw : Rat)
    (position : Nat) :
    drawPosition? (ranking.weights costs) draw = some position ↔
      ranking.FallsOn costs draw position := by
  have scanned := findIdx?_runningTotals_eq_some_iff (ranking.weights_nonneg costs)
    (ranking.drawnPoint_nonneg costs draw) position
  rw [drawPosition?_weights]
  split
  · rename_i nothing
    refine ⟨fun drawn => by contradiction, fun falls => ?_⟩
    -- Without weight the point cannot be before the end of a stretch.
    have behind : ((ranking.weights costs).take (position + 1)).sum ≤ ranking.totalWeight costs :=
      List.Sublist.sum_le_sum (List.take_sublist _ _) (ranking.weights_nonneg costs)
    have reached := ranking.drawnPoint_nonneg costs draw
    have beyond := falls.2
    linarith
  · exact scanned

/-- Where there is weight, a draw falls on one position. -/
theorem existsUnique_fallsOn
    (positive : 0 < ranking.totalWeight costs)
    (draw : Rat) :
    ∃! position, ranking.FallsOn costs draw position := by
  obtain ⟨position, found⟩ := Option.isSome_iff_exists.mp
    (ranking.isSome_findIdx?_drawnPoint costs positive draw)
  have drawn : drawPosition? (ranking.weights costs) draw = some position := by
    rw [drawPosition?_weights, if_neg (not_le.mpr positive), found]
  refine ⟨position, (ranking.drawPosition?_weights_eq_some_iff costs draw position).mp drawn, ?_⟩
  intro other falls
  rw [← drawPosition?_weights_eq_some_iff, drawn] at falls
  exact (Option.some.inj falls).symm

end Weights

section Selected

variable {ranking : Ranking Rat} {costs : CostModel Rat} {draw : Rat} {position : Nat}

/-- Where a draw falls, there is a bounty that gains, and it is selected. -/
theorem FallsOn.exists_selected
    (falls : ranking.FallsOn costs draw position) :
    ∃ entry gain, ranking.entries[position]? = some entry ∧
      entry.profitability? costs = some gain ∧ 0 < gain ∧
      ranking.select? costs draw = some entry.script := by
  have drawn := (ranking.drawPosition?_weights_eq_some_iff costs draw position).mpr falls
  have inside := lt_length_of_drawPosition? drawn
  rw [← map_snd_profitable, List.length_map] at inside
  let candidate := (profitable costs ranking.entries)[position]
  have isEntry : ranking.entries[position]? = some candidate.1 := getElem?_entries_of_lt inside
  have isWeight : (ranking.weights costs)[position]? = some candidate.2 := by
    rw [← map_snd_profitable, List.getElem?_map, List.getElem?_eq_getElem inside]
    rfl
  refine ⟨candidate.1, candidate.2, isEntry, ?_, ?_, ?_⟩
  · exact (profitability?_of_mem_profitable (List.getElem_mem inside)).1
  · -- The stretch is as long as what the sum gains by it.
    have stretch := falls.1.trans_lt falls.2
    rw [List.take_add_one, isWeight, List.sum_append] at stretch
    simpa using stretch
  · rw [← map_snd_profitable] at drawn
    rw [select?, drawn, Option.bind_some, isEntry, Option.map_some]

/-- Nothing is selected exactly if there is no weight. -/
theorem select?_eq_none_iff
    (ranking : Ranking Rat)
    (costs : CostModel Rat)
    (draw : Rat) :
    ranking.select? costs draw = none ↔ ranking.totalWeight costs ≤ 0 := by
  constructor
  · intro none
    by_contra something
    obtain ⟨position, falls, _⟩ :=
      ranking.existsUnique_fallsOn costs (not_le.mp something) draw
    obtain ⟨entry, _, _, _, _, selected⟩ := falls.exists_selected
    rw [none] at selected
    contradiction
  · intro nothing
    have undrawn : drawPosition? ((profitable costs ranking.entries).map Prod.snd) draw = none := by
      rw [map_snd_profitable, drawPosition?_weights, if_pos nothing]
    simp only [select?, undrawn, Option.bind_none]

/-- A larger draw falls on a position no earlier. -/
theorem FallsOn.le_of_le
    {later : Rat}
    {laterPosition : Nat}
    (falls : ranking.FallsOn costs draw position)
    (laterFalls : ranking.FallsOn costs later laterPosition)
    (le : draw ≤ later) :
    position ≤ laterPosition := by
  by_contra behind
  have ahead : ((ranking.weights costs).take (laterPosition + 1)).sum ≤
      ((ranking.weights costs).take position).sum :=
    sum_take_le_sum_take (ranking.weights_nonneg costs) (not_le.mp behind)
  have ordered := ranking.drawnPoint_mono costs le
  have reached := falls.1
  have beyond := laterFalls.2
  linarith

end Selected

/-- A draw is decided by stretches.  It finds nothing exactly if nothing is to be
gained; otherwise the scan finds a position without falling back to the last, the
draw falls on that position and on no other, and what ranks there gains and is
selected.  Larger draws fall on positions no earlier. -/
structure DrawsByWeight
    (ranking : Ranking Rat)
    (costs : CostModel Rat) : Prop where
  select?_eq_none_iff : ∀ draw,
    ranking.select? costs draw = none ↔ ranking.totalWeight costs ≤ 0
  existsUnique : ∀ draw, 0 < ranking.totalWeight costs →
    ∃! position, ranking.FallsOn costs draw position
  selected : ∀ draw position, ranking.FallsOn costs draw position →
    ∃ entry gain, ranking.entries[position]? = some entry ∧
      entry.profitability? costs = some gain ∧ 0 < gain ∧
      ranking.select? costs draw = some entry.script
  drawn_iff : ∀ draw position,
    drawPosition? (ranking.weights costs) draw = some position ↔
      ranking.FallsOn costs draw position
  scanned : ∀ draw, 0 < ranking.totalWeight costs →
    ((runningTotals 0 (ranking.weights costs)).findIdx?
      fun running => ranking.drawnPoint costs draw < running).isSome = true
  monotone : ∀ draw later position laterPosition, draw ≤ later →
    drawPosition? (ranking.weights costs) draw = some position →
    drawPosition? (ranking.weights costs) later = some laterPosition →
    position ≤ laterPosition

/-- Whatever a ranking holds and whatever work costs, every draw is decided by
stretches. -/
theorem drawsByWeight
    (ranking : Ranking Rat)
    (costs : CostModel Rat) :
    ranking.DrawsByWeight costs where
  select?_eq_none_iff := ranking.select?_eq_none_iff costs
  existsUnique := fun draw positive => ranking.existsUnique_fallsOn costs positive draw
  selected := fun _ _ falls => falls.exists_selected
  drawn_iff := ranking.drawPosition?_weights_eq_some_iff costs
  scanned := fun draw positive => ranking.isSome_findIdx?_drawnPoint costs positive draw
  monotone := by
    intro draw later position laterPosition le drawn laterDrawn
    rw [drawPosition?_weights_eq_some_iff] at drawn laterDrawn
    exact drawn.le_of_le laterDrawn le

end Ranking
end WorkMarket
