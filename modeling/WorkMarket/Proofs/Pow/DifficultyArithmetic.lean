import Mathlib.Data.Rat.Lemmas
import Mathlib.Order.Compare
import WorkMarket.Proofs.Pow.ExactDifficulty

/-!
# Calculating with difficulties

Difficulties are the rational numbers in lowest terms.  Every operation has one
equation that says what it does to the value, so a calculation with difficulties
comes to what the same calculation with rational numbers comes to, and to nothing
exactly if that one divides by zero.  As there is one way to write a number in
lowest terms, difficulties of one value are the same, and cross multiplication
compares the values.
-/

namespace WorkMarket
namespace Difficulty

/-! ## Values in lowest terms -/

theorem toRat_eq_mk
    (difficulty : Difficulty) :
    difficulty.toRat =
      ⟨difficulty.numerator, difficulty.denominator, difficulty.denominator_pos.ne',
        difficulty.coprime⟩ :=
  (Rat.mk_eq_mkRat _ _ _ _).symm

@[simp] theorem num_toRat
    (difficulty : Difficulty) :
    difficulty.toRat.num = difficulty.numerator := by
  rw [toRat_eq_mk]

@[simp] theorem den_toRat
    (difficulty : Difficulty) :
    difficulty.toRat.den = difficulty.denominator := by
  rw [toRat_eq_mk]

/-- Difficulties are the same exactly if they are written alike. -/
theorem eq_iff
    {left right : Difficulty} :
    left = right ↔
      left.numerator = right.numerator ∧ left.denominator = right.denominator := by
  cases left
  cases right
  simp

/-- Difficulties of one value are the same. -/
theorem toRat_inj
    {left right : Difficulty} :
    left.toRat = right.toRat ↔ left = right := by
  constructor
  · intro same
    rw [eq_iff, ← num_toRat, ← num_toRat, ← den_toRat, ← den_toRat, same]
    exact ⟨rfl, rfl⟩
  · rintro rfl
    rfl

theorem toRat_eq_zero_iff
    (difficulty : Difficulty) :
    difficulty.toRat = 0 ↔ difficulty.numerator = 0 := by
  rw [← Rat.num_eq_zero, num_toRat]

/-- Whether a difficulty is a value in lowest terms: it is over a positive
denominator that has nothing in common with the numerator, so that zero is nought
over one. -/
structure Represents
    (difficulty : Difficulty)
    (value : Rat) : Prop where
  denominator_pos : 0 < difficulty.denominator
  coprime : difficulty.numerator.natAbs.Coprime difficulty.denominator
  zero : difficulty.numerator = 0 → difficulty.denominator = 1
  value_eq : (difficulty.numerator : Rat) / difficulty.denominator = value

theorem represents_toRat
    (difficulty : Difficulty) :
    difficulty.Represents difficulty.toRat where
  denominator_pos := difficulty.denominator_pos
  coprime := difficulty.coprime
  zero := by
    intro nought
    have coprime := difficulty.coprime
    rwa [nought, Int.natAbs_zero, Nat.coprime_zero_left] at coprime
  value_eq := (Rat.mkRat_eq_div _ _).symm

/-! ## One equation for each operation -/

/-- Cancelling keeps the value. -/
theorem toRat_reduce_eq_mkRat
    (numerator : Int)
    (denominator : Nat)
    (positive : 0 < denominator) :
    (reduce numerator denominator positive).toRat = mkRat numerator denominator := by
  rw [toRat_reduce, Rat.mkRat_eq_div]

theorem toRat_ofInt
    (number : Int) :
    (ofInt number).toRat = number := by
  rw [toRat_eq_mk]
  rfl

/-- The reference magnitude has 224 bits, all of them set. -/
theorem cast_referenceMagnitude
    : (referenceMagnitude : Rat) = 2 ^ 224 - 1 := by
  have whole : referenceMagnitude + 1 = 2 ^ 224 := rfl
  rw [eq_sub_iff_add_eq]
  exact_mod_cast whole

theorem map_toRat_ofFraction?
    (numerator : Int)
    (denominator : Nat) :
    (ofFraction? numerator denominator).map toRat =
      if denominator = 0 then none else some ((numerator : Rat) / denominator) := by
  unfold ofFraction?
  split
  · rename_i positive
    rw [if_neg positive.ne', Option.map_some, toRat_reduce]
  · rename_i zero
    rw [if_pos (Nat.eq_zero_of_not_pos zero), Option.map_none]

theorem toRat_add
    (left right : Difficulty) :
    (left + right).toRat = left.toRat + right.toRat := by
  change (left.add right).toRat = _
  rw [add, toRat_reduce_eq_mkRat, Rat.add_def']
  simp only [num_toRat, den_toRat]

theorem toRat_sub
    (left right : Difficulty) :
    (left - right).toRat = left.toRat - right.toRat := by
  change (left.sub right).toRat = _
  rw [sub, toRat_reduce_eq_mkRat, Rat.sub_def']
  simp only [num_toRat, den_toRat]

theorem toRat_mul
    (left right : Difficulty) :
    (left * right).toRat = left.toRat * right.toRat := by
  change (left.mul right).toRat = _
  rw [mul, toRat_reduce_eq_mkRat, Rat.mul_def']
  simp only [num_toRat, den_toRat]

/-- The sign of a divisor may move to the dividend. -/
theorem mkRat_mul_natAbs
    (dividend divisor : Int)
    (scale : Nat) :
    mkRat (if divisor < 0 then -dividend else dividend) (scale * divisor.natAbs) =
      Rat.divInt dividend (scale * divisor) := by
  rw [← Rat.divInt_ofNat, Int.natCast_mul]
  split
  · rename_i negative
    rw [Int.ofNat_natAbs_of_nonpos negative.le, Int.mul_neg, Rat.divInt_neg, Int.neg_neg]
  · rename_i nonnegative
    rw [Int.natAbs_of_nonneg (Int.not_lt.mp nonnegative)]

theorem map_toRat_div?
    (left right : Difficulty) :
    (left.div? right).map toRat =
      if right.toRat = 0 then none else some (left.toRat / right.toRat) := by
  unfold div?
  simp only [toRat_eq_zero_iff]
  split
  · rfl
  · have moved := mkRat_mul_natAbs (left.numerator * right.denominator) right.numerator
      left.denominator
    rw [Option.map_some, toRat_reduce_eq_mkRat, Rat.div_def']
    simp only [isNegative, decide_eq_true_eq, moved, num_toRat, den_toRat]

/-- Only a zero denominator is refused. -/
theorem ofFraction?_eq_none_iff
    (numerator : Int)
    (denominator : Nat) :
    ofFraction? numerator denominator = none ↔ denominator = 0 := by
  rw [← Option.map_eq_none_iff (f := toRat), map_toRat_ofFraction?]
  split
  · simp [*]
  · simp [*]

/-- Only a zero divisor is refused. -/
theorem div?_eq_none_iff
    (left right : Difficulty) :
    left.div? right = none ↔ right.toRat = 0 := by
  rw [← Option.map_eq_none_iff (f := toRat), map_toRat_div?]
  split
  · simp [*]
  · simp [*]

/-- Cross multiplication compares the values. -/
theorem order_eq_compare
    (left right : Difficulty) :
    left.order right = compare left.toRat right.toRat := by
  have crossed (left right : Difficulty) : left.toRat < right.toRat ↔
      left.numerator * right.denominator < right.numerator * left.denominator := by
    rw [Rat.lt_iff, num_toRat, num_toRat, den_toRat, den_toRat]
  unfold order
  rcases lt_trichotomy left.toRat right.toRat with less | same | greater
  · rw [compare_lt_iff_lt.mpr less]
    exact compare_lt_iff_lt.mpr ((crossed left right).mp less)
  · obtain rfl := toRat_inj.mp same
    rw [compare_eq_iff_eq.mpr rfl, compare_eq_iff_eq.mpr rfl]
  · rw [compare_gt_iff_gt.mpr greater]
    exact compare_gt_iff_gt.mpr ((crossed right left).mp greater)

/-- Difficulties compare as equal exactly if they are written alike. -/
theorem order_eq_eq_iff
    (left right : Difficulty) :
    left.order right = .eq ↔
      left.numerator = right.numerator ∧ left.denominator = right.denominator := by
  rw [order_eq_compare, compare_eq_iff_eq, toRat_inj, eq_iff]

/-! ## Calculations -/

/-- The operations on two difficulties. -/
inductive Operation where
  | add
  | sub
  | mul
  | div
deriving DecidableEq

namespace Operation

/-- An operation on difficulties. -/
def result? : Operation → Difficulty → Difficulty → Option Difficulty
  | .add, left, right => some (left + right)
  | .sub, left, right => some (left - right)
  | .mul, left, right => some (left * right)
  | .div, left, right => left.div? right

/-- The operation on rational numbers. -/
def onRationals? : Operation → Rat → Rat → Option Rat
  | .add, left, right => some (left + right)
  | .sub, left, right => some (left - right)
  | .mul, left, right => some (left * right)
  | .div, left, right => if right = 0 then none else some (left / right)

/-- Every operation does to the values what it does to rational numbers. -/
theorem map_toRat_result?
    (operation : Operation)
    (left right : Difficulty) :
    (operation.result? left right).map toRat = operation.onRationals? left.toRat right.toRat := by
  cases operation with
  | add => exact congrArg some (toRat_add left right)
  | sub => exact congrArg some (toRat_sub left right)
  | mul => exact congrArg some (toRat_mul left right)
  | div => exact map_toRat_div? left right

end Operation

/-- A calculation with difficulties: numbers, fractions and difficulties of
magnitudes, combined by operations to any depth. -/
inductive Calculation where
  | whole (number : Int)
  | fraction (numerator : Int) (denominator : Nat)
  | target (magnitude : Nat) (positive : 0 < magnitude)
  | combined (operation : Operation) (left right : Calculation)

namespace Calculation

/-- What a calculation comes to; nothing, once a denominator or a divisor is
zero. -/
def evaluate? : Calculation → Option Difficulty
  | .whole number => some (ofInt number)
  | .fraction numerator denominator => ofFraction? numerator denominator
  | .target magnitude positive => some (ofMagnitude magnitude positive)
  | .combined operation left right =>
      left.evaluate?.bind fun leftResult =>
        right.evaluate?.bind fun rightResult => operation.result? leftResult rightResult

/-- The same calculation with rational numbers. -/
def value? : Calculation → Option Rat
  | .whole number => some number
  | .fraction numerator denominator =>
      if denominator = 0 then none else some ((numerator : Rat) / denominator)
  | .target magnitude _ => some ((2 ^ 224 - 1) / magnitude)
  | .combined operation left right =>
      left.value?.bind fun leftValue =>
        right.value?.bind fun rightValue => operation.onRationals? leftValue rightValue

/-- A calculation comes to its value. -/
theorem map_toRat_evaluate?
    (calculation : Calculation) :
    calculation.evaluate?.map toRat = calculation.value? := by
  induction calculation with
  | whole number => exact congrArg some (toRat_ofInt number)
  | fraction numerator denominator => exact map_toRat_ofFraction? numerator denominator
  | target magnitude positive =>
      rw [evaluate?, value?, Option.map_some, toRat_ofMagnitude, cast_referenceMagnitude]
  | combined operation left right leftHypothesis rightHypothesis =>
      rw [evaluate?, value?, ← leftHypothesis, ← rightHypothesis]
      cases left.evaluate? with
      | none => rfl
      | some leftResult =>
          cases right.evaluate? with
          | none => rfl
          | some rightResult => exact operation.map_toRat_result? leftResult rightResult

end Calculation

/-- Difficulties are the field of rational numbers.  Every calculation comes to
its value in lowest terms, or to nothing where it has no value; only a zero
denominator and a zero divisor are refused; and difficulties are in the order of
their values, equal exactly if they are written alike. -/
theorem calculates_rationals
    : (∀ calculation : Calculation,
        Option.Rel Represents calculation.evaluate? calculation.value?) ∧
      (∀ (numerator : Int) (denominator : Nat),
        ofFraction? numerator denominator = none ↔ denominator = 0) ∧
      ∀ left right : Difficulty,
        (left.div? right = none ↔ right.toRat = 0) ∧
        left.order right = compare left.toRat right.toRat ∧
        (left.order right = .eq ↔
          left.numerator = right.numerator ∧ left.denominator = right.denominator) := by
  refine ⟨fun calculation => ?_, ofFraction?_eq_none_iff, fun left right =>
    ⟨div?_eq_none_iff left right, order_eq_compare left right, order_eq_eq_iff left right⟩⟩
  rw [← calculation.map_toRat_evaluate?]
  cases calculation.evaluate? with
  | none => exact .none
  | some result => exact .some result.represents_toRat

/-- A half by minus a third: the sign ends up over the denominator. -/
example :
    (Calculation.combined .div (.fraction 2 4) (.fraction (-1) 3)).evaluate?.map
      (fun quotient => (quotient.numerator, quotient.denominator)) = some (-3, 2) := by
  decide

end Difficulty
end WorkMarket
