import Mathlib.Algebra.Order.Field.Basic
import Mathlib.Data.Nat.Cast.Order.Ring
import WorkMarket.Proofs.Pow.DifficultyArithmetic
import WorkMarket.Proofs.Pow.HashCheck

/-!
# The order of targets and of their difficulties

The reference magnitude over that of a target grows as the target shrinks, so
difficulties are ordered the other way round than their targets, and nothing but
the magnitude of a target counts, however it is encoded.  Invalid targets have the
magnitude zero, which is below all others, and no difficulty.
-/

namespace WorkMarket
namespace Difficulty

/-- The larger the magnitude, the smaller the difficulty. -/
theorem strictAntiOn_reference_div
    : StrictAntiOn (fun magnitude : Nat => (referenceMagnitude : Rat) / magnitude)
        (Set.Ioi 0) := by
  intro small smallPositive large _ smaller
  have reference : (0 : Rat) < referenceMagnitude := Nat.cast_pos.mpr (by decide)
  exact div_lt_div_of_pos_left reference (Nat.cast_pos.mpr smallPositive)
    (Nat.cast_lt.mpr smaller)

/-- Difficulties of magnitudes are in the opposite order. -/
theorem order_ofMagnitude
    {left right : Nat}
    (leftPositive : 0 < left)
    (rightPositive : 0 < right) :
    (ofMagnitude right rightPositive).order (ofMagnitude left leftPositive) =
      compare left right := by
  rw [order_eq_compare, toRat_ofMagnitude, toRat_ofMagnitude, ← cmp_eq_compare, ← cmp_eq_compare]
  exact strictAntiOn_reference_div.cmp_map_eq rightPositive leftPositive

end Difficulty

namespace Target

/-- A target has no difficulty exactly if it is invalid. -/
theorem difficulty_eq_error_iff
    (target : Target) :
    (∃ failure, target.difficulty = .error failure) ↔ target.isValid = false := by
  unfold difficulty
  by_cases valid : target.isValid = true
  · simp [valid]
  · simp [valid]

theorem exists_difficulty
    (target : Target)
    (valid : target.isValid = true) :
    ∃ difficulty, target.difficulty = .ok difficulty :=
  ⟨_, (target.difficulty_eq_ok_iff _).mpr ⟨valid, rfl⟩⟩

/-- An invalid target comes before every valid one. -/
theorem order_of_invalid
    {left right : Target}
    (invalid : left.isValid = false)
    (valid : right.isValid = true) :
    left.order right = .lt := by
  have nothing : left.magnitude = 0 := by simp [magnitude, invalid]
  rw [order, nothing, Nat.compare_eq_lt]
  exact magnitude_pos valid

/-- Valid targets lie between the hardest and the easiest. -/
theorem isLE_order_extremes
    {target : Target}
    (valid : target.isValid = true) :
    (hardest.order target).isLE = true ∧ (target.order easiest).isLE = true := by
  have least : hardest.magnitude = 1 := by decide
  constructor
  · rw [order, least, Nat.isLE_compare]
    exact magnitude_pos valid
  · rw [order, Nat.isLE_compare]
    exact target.magnitude_le_easiest

section Reversal

variable {left right : Target} {leftDifficulty rightDifficulty : Difficulty}

/-- Difficulties are in the opposite order of their targets. -/
theorem order_eq_order_difficulty
    (leftFound : left.difficulty = .ok leftDifficulty)
    (rightFound : right.difficulty = .ok rightDifficulty) :
    left.order right = rightDifficulty.order leftDifficulty := by
  obtain ⟨leftValid, rfl⟩ := (left.difficulty_eq_ok_iff _).mp leftFound
  obtain ⟨rightValid, rfl⟩ := (right.difficulty_eq_ok_iff _).mp rightFound
  exact (Difficulty.order_ofMagnitude _ _).symm

/-- Difficulties are the same exactly if the magnitudes are. -/
theorem difficulty_eq_iff_magnitude_eq
    (leftFound : left.difficulty = .ok leftDifficulty)
    (rightFound : right.difficulty = .ok rightDifficulty) :
    leftDifficulty = rightDifficulty ↔ left.magnitude = right.magnitude := by
  rw [← Nat.compare_eq_eq, ← order, order_eq_order_difficulty leftFound rightFound,
    Difficulty.order_eq_eq_iff, ← Difficulty.eq_iff, eq_comm]

end Reversal

/-- Whether a target is priced exactly.  Only an invalid one has no difficulty.  A
valid one has the reference magnitude over its own, in lowest terms, which is
positive; it lies between the hardest and the easiest target, and its difficulty
between theirs. -/
structure IsPricedExactly (target : Target) : Prop where
  error_iff : (∃ failure, target.difficulty = .error failure) ↔ target.isValid = false
  exact : target.isValid = true → ∃ difficulty, target.difficulty = .ok difficulty ∧
    difficulty.Represents ((2 ^ 224 - 1) / target.magnitude) ∧ 0 < difficulty.numerator
  magnitude_lt : target.magnitude < 2 ^ 256
  between : target.isValid = true →
    (hardest.order target).isLE = true ∧ (target.order easiest).isLE = true
  difficulty_between : ∀ difficulty, target.difficulty = .ok difficulty →
    ∃ lowest highest, easiest.difficulty = .ok lowest ∧ hardest.difficulty = .ok highest ∧
      (lowest.order difficulty).isLE = true ∧ (difficulty.order highest).isLE = true

theorem isPricedExactly
    (target : Target) :
    target.IsPricedExactly where
  error_iff := target.difficulty_eq_error_iff
  exact := by
    intro valid
    obtain ⟨difficulty, found⟩ := target.exists_difficulty valid
    have value := difficulty.represents_toRat
    have positive := view_difficulty_pos found
    obtain ⟨_, isQuotient⟩ := (target.difficulty_eq_ok_iff _).mp found
    refine ⟨difficulty, found, ?_, ?_⟩
    · rwa [isQuotient, Difficulty.toRat_ofMagnitude, Difficulty.cast_referenceMagnitude,
        ← isQuotient] at value
    · rw [← difficulty.num_toRat]
      exact Rat.num_pos.mpr positive
  magnitude_lt := target.magnitude_lt
  between := isLE_order_extremes
  difficulty_between := by
    intro difficulty found
    obtain ⟨valid, _⟩ := (target.difficulty_eq_ok_iff _).mp found
    obtain ⟨harder, easier⟩ := isLE_order_extremes valid
    obtain ⟨lowest, atLowest⟩ := exists_difficulty easiest (by decide)
    obtain ⟨highest, atHighest⟩ := exists_difficulty hardest (by decide)
    refine ⟨lowest, highest, atLowest, atHighest, ?_, ?_⟩
    · rwa [order_eq_order_difficulty found atLowest] at easier
    · rwa [order_eq_order_difficulty atHighest found] at harder

/-- Every target is priced exactly.  Of two valid targets the difficulties are in
the opposite order, and the same exactly if the magnitudes are; an invalid target
comes before every valid one. -/
theorem difficulty_reverses_order
    (left right : Target) :
    left.IsPricedExactly ∧
      (∀ leftDifficulty rightDifficulty,
        left.difficulty = .ok leftDifficulty → right.difficulty = .ok rightDifficulty →
          left.order right = rightDifficulty.order leftDifficulty ∧
          (leftDifficulty = rightDifficulty ↔ left.magnitude = right.magnitude)) ∧
      (left.isValid = false → right.isValid = true → left.order right = .lt) :=
  ⟨left.isPricedExactly,
    fun _ _ leftFound rightFound => ⟨order_eq_order_difficulty leftFound rightFound,
      difficulty_eq_iff_magnitude_eq leftFound rightFound⟩,
    order_of_invalid⟩

/-- Of two targets the one with the larger encoding has the smaller magnitude, and
so the larger difficulty. -/
theorem difficulty_reverses_order_largerEncoding
    : (ofParts 4 0xffffff).compact < (ofParts 5 0x000001).compact ∧
      ∃ higher lower, (ofParts 5 0x000001).difficulty = .ok higher ∧
        (ofParts 4 0xffffff).difficulty = .ok lower ∧
        (ofParts 5 0x000001).order (ofParts 4 0xffffff) = .lt ∧ lower.order higher = .lt := by
  obtain ⟨higher, atHigher⟩ := exists_difficulty (ofParts 5 0x000001) (by decide)
  obtain ⟨lower, atLower⟩ := exists_difficulty (ofParts 4 0xffffff) (by decide)
  have first : (ofParts 5 0x000001).order (ofParts 4 0xffffff) = .lt := by decide
  obtain ⟨_, opposite, _⟩ := difficulty_reverses_order (ofParts 5 0x000001) (ofParts 4 0xffffff)
  exact ⟨by decide, higher, lower, atHigher, atLower, first,
    (opposite higher lower atHigher atLower).1.symm.trans first⟩

end Target
end WorkMarket
