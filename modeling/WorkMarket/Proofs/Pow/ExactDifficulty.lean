import Mathlib.Algebra.Order.Field.Rat
import WorkMarket.Pow.Target

/-!
# Difficulties as rational numbers

Cancelling leaves the value of a fraction alone, so the difficulty of a valid
target is the reference magnitude divided by the magnitude of the target.  In
exact arithmetic this is also the view that prices are computed from, and it
is positive.
-/

namespace WorkMarket
namespace Difficulty

/-- Cancelling what numerator and denominator have in common keeps the
value. -/
theorem toRat_reduce
    (numerator : Int)
    (denominator : Nat)
    (positive : 0 < denominator) :
    (reduce numerator denominator positive).toRat = numerator / denominator := by
  have common_ne_zero : numerator.natAbs.gcd denominator ≠ 0 :=
    Nat.ne_of_gt (Nat.gcd_pos_of_pos_right _ positive)
  have dividesNumerator : ((numerator.natAbs.gcd denominator : Nat) : Int) ∣ numerator :=
    Int.natAbs_dvd_natAbs.mp (by simpa using Nat.gcd_dvd_left _ _)
  have dividesDenominator : numerator.natAbs.gcd denominator ∣ denominator :=
    Nat.gcd_dvd_right _ _
  rw [← Rat.mkRat_eq_div, toRat, ← Rat.mkRat_mul_left common_ne_zero]
  congr 1
  · exact Int.mul_ediv_cancel' dividesNumerator
  · exact Nat.mul_div_cancel' dividesDenominator

/-- The harder the target, the smaller its magnitude and the larger its
difficulty. -/
theorem toRat_ofMagnitude
    (magnitude : Nat)
    (positive : 0 < magnitude) :
    (ofMagnitude magnitude positive).toRat = (referenceMagnitude : Rat) / magnitude := by
  rw [ofMagnitude, toRat_reduce, Int.cast_natCast]

theorem toRat_ofMagnitude_pos
    (magnitude : Nat)
    (positive : 0 < magnitude) :
    0 < (ofMagnitude magnitude positive).toRat := by
  have reference_pos : (0 : Rat) < (referenceMagnitude : Rat) :=
    Nat.cast_pos.mpr (by decide)
  rw [toRat_ofMagnitude]
  exact div_pos reference_pos (Nat.cast_pos.mpr positive)

end Difficulty

namespace Target

/-- A target has a difficulty exactly if it is valid. -/
theorem difficulty_eq_ok_iff
    (target : Target)
    (difficulty : Difficulty) :
    target.difficulty = .ok difficulty ↔
      ∃ valid : target.isValid = true,
        difficulty = .ofMagnitude target.magnitude (magnitude_pos valid) := by
  unfold Target.difficulty
  by_cases valid : target.isValid = true
  · simp [valid, eq_comm]
  · simp [valid]

/-- In exact arithmetic every difficulty of a target is positive. -/
theorem view_difficulty_pos
    {target : Target}
    {difficulty : Difficulty}
    (found : target.difficulty = .ok difficulty) :
    0 < difficulty.view Rat := by
  obtain ⟨valid, rfl⟩ := (target.difficulty_eq_ok_iff difficulty).mp found
  exact Difficulty.toRat_ofMagnitude_pos _ _

end Target
end WorkMarket
