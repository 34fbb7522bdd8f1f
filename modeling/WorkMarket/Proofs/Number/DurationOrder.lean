import Mathlib.Algebra.Order.Field.Rat
import WorkMarket.Number.Duration

/-!
# Longer times are longer durations

Rounding to the nearest whole number keeps the order of fractions, halves
included, because an even neighbour is preferred on both sides alike.  Where the
seconds are too many for a duration, the longest stands for them, so that the
conversion keeps the order of all times.
-/

namespace WorkMarket

section Rounding

variable {numerator denominator otherNumerator otherDenominator : Nat}

/-- A fraction is rounded up from more than a half, and from a half if the whole
part is odd. -/
def RoundsUp
    (numerator denominator : Nat) : Prop :=
  denominator < 2 * (numerator % denominator) ∨
    denominator = 2 * (numerator % denominator) ∧ numerator / denominator % 2 = 1

instance
    (numerator denominator : Nat) :
    Decidable (RoundsUp numerator denominator) :=
  inferInstanceAs (Decidable (_ ∨ _))

theorem roundHalfEven_eq
    (numerator denominator : Nat) :
    roundHalfEven numerator denominator =
      numerator / denominator + if RoundsUp numerator denominator then 1 else 0 := by
  unfold roundHalfEven
  dsimp only
  split
  · rw [if_neg, Nat.add_zero]
    unfold RoundsUp
    omega
  · split
    · rename_i aboveHalf
      rw [if_pos]
      exact Or.inl aboveHalf
    · split
      · rw [if_neg, Nat.add_zero]
        unfold RoundsUp
        omega
      · rw [if_pos]
        exact Or.inr (by omega)

/-- Between fractions with the same whole part, the remainders are ordered. -/
theorem remainders_le_of_div_eq
    (same : numerator / denominator = otherNumerator / otherDenominator)
    (ordered : numerator * otherDenominator ≤ otherNumerator * denominator) :
    numerator % denominator * otherDenominator ≤
      otherNumerator % otherDenominator * denominator := by
  have parts := Nat.div_add_mod numerator denominator
  have otherParts := Nat.div_add_mod otherNumerator otherDenominator
  rw [← parts, ← otherParts, same, Nat.add_mul, Nat.add_mul,
    Nat.mul_right_comm denominator, Nat.mul_right_comm otherDenominator,
    Nat.mul_comm denominator otherDenominator] at ordered
  exact Nat.le_of_add_le_add_left ordered

/-- Between fractions with the same whole part, the larger is rounded up if the
smaller is. -/
theorem RoundsUp.of_div_eq
    (up : RoundsUp numerator denominator)
    (positive : 0 < denominator)
    (otherPositive : 0 < otherDenominator)
    (same : numerator / denominator = otherNumerator / otherDenominator)
    (ordered : numerator * otherDenominator ≤ otherNumerator * denominator) :
    RoundsUp otherNumerator otherDenominator := by
  have doubled : 2 * (numerator % denominator) * otherDenominator ≤
      2 * (otherNumerator % otherDenominator) * denominator := by
    rw [Nat.mul_assoc, Nat.mul_assoc]
    exact Nat.mul_le_mul_left 2 (remainders_le_of_div_eq same ordered)
  rcases up with aboveHalf | ⟨half, odd⟩
  · left
    refine Nat.lt_of_mul_lt_mul_left (a := denominator) ?_
    calc denominator * otherDenominator
        < 2 * (numerator % denominator) * otherDenominator :=
          Nat.mul_lt_mul_of_pos_right aboveHalf otherPositive
      _ ≤ 2 * (otherNumerator % otherDenominator) * denominator := doubled
      _ = denominator * (2 * (otherNumerator % otherDenominator)) := Nat.mul_comm _ _
  · have atLeastHalf : otherDenominator ≤ 2 * (otherNumerator % otherDenominator) := by
      rw [← half, Nat.mul_comm] at doubled
      exact Nat.le_of_mul_le_mul_right doubled positive
    rw [same] at odd
    exact (Nat.lt_or_eq_of_le atLeastHalf).imp id fun equal => ⟨equal, odd⟩

/-- Rounding keeps the order of fractions. -/
theorem roundHalfEven_mono
    (positive : 0 < denominator)
    (otherPositive : 0 < otherDenominator)
    (ordered : numerator * otherDenominator ≤ otherNumerator * denominator) :
    roundHalfEven numerator denominator ≤ roundHalfEven otherNumerator otherDenominator := by
  have whole : numerator / denominator ≤ otherNumerator / otherDenominator := by
    rw [Nat.le_div_iff_mul_le otherPositive]
    refine Nat.le_of_mul_le_mul_right ?_ positive
    calc numerator / denominator * otherDenominator * denominator
        = numerator / denominator * denominator * otherDenominator := Nat.mul_right_comm _ _ _
      _ ≤ numerator * otherDenominator :=
          Nat.mul_le_mul_right _ (Nat.div_mul_le_self numerator denominator)
      _ ≤ otherNumerator * denominator := ordered
  rw [roundHalfEven_eq, roundHalfEven_eq]
  rcases Nat.lt_or_eq_of_le whole with smaller | same
  · split <;> omega
  · rw [same]
    by_cases up : RoundsUp numerator denominator
    · rw [if_pos up, if_pos (up.of_div_eq positive otherPositive same ordered)]
    · rw [if_neg up]
      exact Nat.le_add_right _ _

end Rounding

namespace Duration

/-- Too many nanoseconds make the longest duration. -/
theorem nanoseconds_ofNanoseconds?
    (nanoseconds : Nat) :
    ((ofNanoseconds? nanoseconds).getD longest).nanoseconds =
      min nanoseconds longest.nanoseconds := by
  unfold ofNanoseconds?
  split
  · rename_i bounded
    exact (Nat.min_eq_left (Nat.le_pred_of_lt bounded)).symm
  · rename_i tooLong
    exact (Nat.min_eq_right (Nat.le_trans (Nat.pred_le _) (Nat.not_lt.mp tooLong))).symm

/-- More seconds make no shorter duration. -/
theorem getD_ofRational?_mono
    {seconds otherSeconds : Rat}
    (nonneg : 0 ≤ seconds)
    (ordered : seconds ≤ otherSeconds) :
    (ofRational? seconds).getD longest ≤ (ofRational? otherSeconds).getD longest := by
  have numerator : 0 ≤ seconds.num := Rat.num_nonneg.mpr nonneg
  have otherNumerator : 0 ≤ otherSeconds.num := Rat.num_nonneg.mpr (nonneg.trans ordered)
  unfold ofRational?
  rw [if_neg (Int.not_lt.mpr numerator), if_neg (Int.not_lt.mpr otherNumerator)]
  change Duration.nanoseconds _ ≤ Duration.nanoseconds _
  rw [nanoseconds_ofNanoseconds?, nanoseconds_ofNanoseconds?]
  apply min_le_min_right
  apply roundHalfEven_mono seconds.den_pos otherSeconds.den_pos
  have crossed : seconds.num.toNat * otherSeconds.den ≤ otherSeconds.num.toNat * seconds.den := by
    rw [← Int.ofNat_le, Int.natCast_mul, Int.natCast_mul, Int.toNat_of_nonneg numerator,
      Int.toNat_of_nonneg otherNumerator]
    exact (Rat.le_iff _ _).mp ordered
  rw [Nat.mul_right_comm, Nat.mul_right_comm otherSeconds.num.toNat]
  exact Nat.mul_le_mul_right _ crossed

end Duration
end WorkMarket
