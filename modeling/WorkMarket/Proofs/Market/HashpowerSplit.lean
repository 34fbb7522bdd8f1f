import Mathlib.Algebra.Order.Field.Rat
import Mathlib.Tactic.FieldSimp
import Mathlib.Tactic.Linarith
import Mathlib.Tactic.NormNum
import Mathlib.Tactic.Ring
import WorkMarket.Market.Split
import WorkMarket.Proofs.Number.GuardedDivision

/-!
# The shares of hashpower

Every kind of work weighs what it gains, and blocks weigh one where nothing else
gains.  So the weights never add up to zero, and where blocks would get less than
their floor the others weigh something.  The shares are the weights in proportion,
or the floor for blocks and the rest in proportion; both divisions are by numbers
above zero, whatever the profitabilities are.
-/

namespace WorkMarket
namespace Split

/-- The same change for each kind of work. -/
def map
    {α β : Type}
    (change : α → β)
    (split : Split α) :
    Split β :=
  ⟨change split.blocks, change split.bounties, change split.contracts⟩

section Weights

/-- What each kind of work weighs: its gain, but one for blocks if nothing else has
a gain. -/
def weights
    (profits : Split Rat) :
    Split Rat :=
  ⟨if profits.bounties ≤ 0 ∧ profits.contracts ≤ 0 then 1 else max profits.blocks 0,
    max profits.bounties 0, max profits.contracts 0⟩

/-- The part of a sum of weights that blocks would get in proportion. -/
def blocksPart
    (weights : Split Rat) :
    Rat :=
  weights.blocks / weights.total

variable (profits : Split Rat)

theorem positivePart_eq_max
    (value : Rat) :
    Scalar.positivePart value = max value 0 := by
  change (if 0 < value then value else 0) = max value 0
  rw [max_comm, max_def_lt]

theorem clamped_eq_weights :
    profits.clamped = profits.weights := by
  have gains (value : Rat) : (Scalar.zero : Rat) < max value 0 ↔ ¬value ≤ 0 := by
    change 0 < max value 0 ↔ ¬value ≤ 0
    simp
  unfold clamped weights
  simp only [positivePart_eq_max, gains, ← not_and_or]
  rw [ite_not]
  split
  · rfl
  · rfl

theorem blocks_weights_nonneg :
    0 ≤ profits.weights.blocks := by
  unfold weights
  split
  · exact zero_le_one
  · exact le_max_right _ _

theorem bounties_weights_nonneg :
    0 ≤ profits.weights.bounties :=
  le_max_right _ _

theorem contracts_weights_nonneg :
    0 ≤ profits.weights.contracts :=
  le_max_right _ _

/-- Blocks weigh something where nothing else does. -/
theorem total_weights_pos :
    0 < profits.weights.total := by
  have blocks := profits.blocks_weights_nonneg
  have bounties := profits.bounties_weights_nonneg
  have contracts := profits.contracts_weights_nonneg
  change 0 < profits.weights.blocks + profits.weights.bounties + profits.weights.contracts
  by_cases losing : profits.bounties ≤ 0 ∧ profits.contracts ≤ 0
  · have one : profits.weights.blocks = 1 := if_pos losing
    linarith
  · rw [not_and_or, not_le, not_le] at losing
    rcases losing with gains | gains
    · have weighs : 0 < profits.weights.bounties := lt_max_of_lt_left gains
      linarith
    · have weighs : 0 < profits.weights.contracts := lt_max_of_lt_left gains
      linarith

/-- Where blocks would not get everything, something else weighs. -/
theorem boost_weights_pos
    (short : profits.weights.blocksPart < 1 / 4) :
    0 < profits.weights.bounties + profits.weights.contracts := by
  have positive := profits.total_weights_pos
  unfold blocksPart at short
  rw [div_lt_iff₀ positive] at short
  unfold total at positive short
  linarith [profits.blocks_weights_nonneg]

end Weights

section Shares

variable (profits : Split Rat)

/-- The floor of blocks, as a number. -/
theorem blocksFloor_rat :
    (blocksFloor : Rat) = 1 / 4 := by
  change mkRat 1 4 = 1 / 4
  norm_num [Rat.mkRat_eq_div]

theorem ideal_eq :
    profits.ideal = profits.weights.normalized.floored := by
  rw [ideal, clamped_eq_weights]

/-- Where blocks get enough in proportion, everything is in proportion. -/
theorem ideal_of_enough
    (enough : 1 / 4 ≤ profits.weights.blocksPart) :
    profits.ideal = profits.weights.normalized := by
  rw [ideal_eq]
  exact if_neg (by rw [blocksFloor_rat]; exact not_lt.mpr enough)

/-- The floor for blocks, and the rest for the others in proportion. -/
def withFloor
    (weights : Split Rat) :
    Split Rat :=
  ⟨1 / 4, 3 / 4 * (weights.bounties / (weights.bounties + weights.contracts)),
    3 / 4 * (weights.contracts / (weights.bounties + weights.contracts))⟩

/-- Where they do not, they get their floor. -/
theorem ideal_of_short
    (short : profits.weights.blocksPart < 1 / 4) :
    profits.ideal = profits.weights.withFloor := by
  have positive := profits.total_weights_pos.ne'
  have boost := (profits.boost_weights_pos short).ne'
  -- The sum of the weights cancels when the two other shares are divided by theirs.
  have rescaled (weight : Rat) :
      weight / profits.weights.total * ((1 - 1 / 4) / (profits.weights.bounties /
          profits.weights.total + profits.weights.contracts / profits.weights.total)) =
        3 / 4 * (weight / (profits.weights.bounties + profits.weights.contracts)) := by
    rw [← add_div]
    field_simp
    ring
  rw [ideal_eq, floored, if_pos (by rwa [blocksFloor_rat])]
  simp only [blocksFloor_rat]
  exact congr (congrArg (Split.mk (1 / 4)) (rescaled _)) (rescaled _)

/-- Whether the amounts of two splits have the same parts in their totals. -/
structure InProportion
    (split other : Split Rat) : Prop where
  blocks : split.blocks * other.total = other.blocks * split.total
  bounties : split.bounties * other.total = other.bounties * split.total
  contracts : split.contracts * other.total = other.contracts * split.total

/-- Whether shares are those for given profitabilities. -/
structure IsIdealFor
    (shares profits : Split Rat) : Prop where
  blocks_ge : 1 / 4 ≤ shares.blocks
  bounties_nonneg : 0 ≤ shares.bounties
  contracts_nonneg : 0 ≤ shares.contracts
  total_eq : shares.total = 1
  /-- Shares are in proportion where that gives blocks enough. -/
  proportional : 1 / 4 ≤ profits.weights.blocksPart →
    0 < profits.weights.total ∧ shares.InProportion profits.weights
  /-- Elsewhere blocks have their floor, and the others share the rest in the ratio
  of their weights. -/
  raised : profits.weights.blocksPart < 1 / 4 →
    0 < profits.weights.bounties + profits.weights.contracts ∧
      shares.blocks = 1 / 4 ∧ shares.bounties + shares.contracts = 3 / 4 ∧
      shares.bounties * profits.weights.contracts = shares.contracts * profits.weights.bounties

theorem total_normalized
    {amounts : Split Rat}
    (divisible : amounts.total ≠ 0) :
    amounts.normalized.total = 1 := by
  change _ / _ + _ / _ + _ / _ = (1 : Rat)
  rw [← add_div, ← add_div]
  exact div_self divisible

theorem inProportion_normalized
    {amounts : Split Rat}
    (divisible : amounts.total ≠ 0) :
    amounts.normalized.InProportion amounts := by
  have part (amount : Rat) :
      amount / amounts.total * amounts.total = amount * amounts.normalized.total := by
    rw [div_mul_cancel₀ amount divisible, total_normalized divisible, mul_one]
  exact ⟨part _, part _, part _⟩

theorem isIdealFor_of_enough
    (enough : 1 / 4 ≤ profits.weights.blocksPart) :
    profits.weights.normalized.IsIdealFor profits where
  blocks_ge := enough
  bounties_nonneg := div_nonneg profits.bounties_weights_nonneg profits.total_weights_pos.le
  contracts_nonneg := div_nonneg profits.contracts_weights_nonneg profits.total_weights_pos.le
  total_eq := total_normalized profits.total_weights_pos.ne'
  proportional := fun _ =>
    ⟨profits.total_weights_pos, inProportion_normalized profits.total_weights_pos.ne'⟩
  raised := fun short => absurd enough (not_le.mpr short)

theorem isIdealFor_of_short
    (short : profits.weights.blocksPart < 1 / 4) :
    profits.weights.withFloor.IsIdealFor profits := by
  have boost := profits.boost_weights_pos short
  have rest : profits.weights.withFloor.bounties + profits.weights.withFloor.contracts =
      3 / 4 := by
    unfold withFloor
    dsimp only
    rw [← mul_add, ← add_div, div_self boost.ne', mul_one]
  refine ⟨le_rfl, ?_, ?_, ?_, fun enough => absurd enough (not_le.mpr short), fun _ => ?_⟩
  · exact mul_nonneg (by norm_num) (div_nonneg profits.bounties_weights_nonneg boost.le)
  · exact mul_nonneg (by norm_num) (div_nonneg profits.contracts_weights_nonneg boost.le)
  · change (1 : Rat) / 4 + profits.weights.withFloor.bounties +
      profits.weights.withFloor.contracts = 1
    rw [add_assoc, rest]
    norm_num
  · refine ⟨boost, rfl, rest, ?_⟩
    unfold withFloor
    ring

theorem isIdealFor_ideal :
    profits.ideal.IsIdealFor profits := by
  rcases lt_or_ge profits.weights.blocksPart (1 / 4) with short | enough
  · rw [profits.ideal_of_short short]
    exact profits.isIdealFor_of_short short
  · rw [profits.ideal_of_enough enough]
    exact profits.isIdealFor_of_enough enough

/-- Hashpower is given out whole. -/
theorem total_assign
    {shares : Split Rat}
    (whole : shares.total = 1)
    (hashpower : Rat) :
    (shares.assign hashpower).total = hashpower := by
  change _ * hashpower + _ * hashpower + _ * hashpower = hashpower
  rw [← add_mul, ← add_mul]
  exact (congrArg (· * hashpower) whole).trans (one_mul hashpower)

/-- Each kind of work gets its share. -/
theorem inProportion_assign
    {shares : Split Rat}
    (whole : shares.total = 1)
    (hashpower : Rat) :
    (shares.assign hashpower).InProportion shares := by
  have part (share : Rat) :
      share * hashpower * shares.total = share * (shares.assign hashpower).total := by
    rw [total_assign whole, whole, mul_one]
  exact ⟨part _, part _, part _⟩

end Shares

section Divisors

theorem clamped_map_exact
    (split : Split Rat) :
    (split.map Guarded.exact).clamped = split.clamped.map Guarded.exact := by
  unfold clamped
  simp only [map, Guarded.positivePart_exact, Guarded.zero_eq_exact, Guarded.one_eq_exact,
    Guarded.exact_lt_exact_iff]
  split
  · rfl
  · rfl

/-- Amounts are divided by their sum. -/
theorem normalized_map_exact
    {split : Split Rat}
    (divisible : split.total ≠ 0) :
    (split.map Guarded.exact).normalized = split.normalized.map Guarded.exact := by
  have part (amount : Rat) : Guarded.exact amount / (split.map Guarded.exact).total =
      Guarded.exact (amount / split.total) :=
    (Guarded.exact_div_eq_exact_iff amount split.total).mpr divisible
  unfold normalized
  simp only [map] at part ⊢
  rw [part, part, part]

/-- Where the share of blocks is raised, it is divided by the others. -/
theorem floored_map_exact
    {split : Split Rat}
    (divisible : split.blocks < blocksFloor → split.bounties + split.contracts ≠ 0) :
    (split.map Guarded.exact).floored = split.floored.map Guarded.exact := by
  have floor : (blocksFloor : Guarded) = Guarded.exact blocksFloor :=
    Guarded.ofFraction_eq_exact 1 (by decide)
  unfold floored
  simp only [map, floor, Guarded.exact_lt_exact_iff, Guarded.one_eq_exact, Guarded.exact_add,
    Guarded.exact_sub]
  split
  · rename_i short
    simp only [(Guarded.exact_div_eq_exact_iff _ _).mpr (divisible short), Guarded.exact_mul]
  · rfl

/-- Nothing is divided by zero on the way to the shares. -/
theorem ideal_map_exact
    (profits : Split Rat) :
    (profits.map Guarded.exact).ideal = profits.ideal.map Guarded.exact := by
  unfold ideal
  rw [clamped_map_exact, clamped_eq_weights,
    normalized_map_exact profits.total_weights_pos.ne', floored_map_exact]
  intro short
  rw [blocksFloor_rat] at short
  change _ / _ + _ / _ ≠ (0 : Rat)
  rw [← add_div]
  exact (div_pos (profits.boost_weights_pos short) profits.total_weights_pos).ne'

end Divisors

/-- Whatever the profitabilities are, nothing is divided by zero on the way to the
shares, these are the ones for the profitabilities, and any hashpower is given out
whole in the proportion of the shares. -/
theorem ideal_sharesOut
    (profits : Split Rat) :
    (profits.map Guarded.exact).ideal = profits.ideal.map Guarded.exact ∧
      profits.ideal.IsIdealFor profits ∧
      ∀ hashpower, (profits.ideal.assign hashpower).total = hashpower ∧
        (profits.ideal.assign hashpower).InProportion profits.ideal := by
  have isIdeal := profits.isIdealFor_ideal
  exact ⟨profits.ideal_map_exact, isIdeal, fun hashpower =>
    ⟨total_assign isIdeal.total_eq hashpower, inProportion_assign isIdeal.total_eq hashpower⟩⟩

/-- Blocks that lose still get a quarter, and bounties three times what contracts
get. -/
example : (ideal ⟨-1, 3, 1⟩ : Split Rat) = ⟨1 / 4, 9 / 16, 3 / 16⟩ := by decide +kernel

end Split
end WorkMarket
