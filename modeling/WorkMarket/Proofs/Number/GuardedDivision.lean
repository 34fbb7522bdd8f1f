import Mathlib.Algebra.Order.Field.Rat
import WorkMarket.Number.Scalar

/-!
# Division that notices a zero

A rational number divided by zero is zero, so an exact result does not show
whether its rule divided by zero on the way.  A guarded number does: it loses its
value when it is divided by zero, and nothing computed from it has a value again.
A rule that is written for every scalar, and gives over guarded numbers just what
it gives over rational ones, has divided by zero nowhere.
-/

namespace WorkMarket

/-- A rational number, or none after a division by zero. -/
structure Guarded where
  value? : Option Rat
deriving DecidableEq

namespace Guarded

/-- A number that has its value. -/
def exact
    (value : Rat) :
    Guarded :=
  ⟨some value⟩

/-- What two numbers give, if both have their values and these give something. -/
def combine
    (operation : Rat → Rat → Option Rat)
    (left right : Guarded) :
    Guarded :=
  ⟨left.value?.bind fun first => right.value?.bind fun second => operation first second⟩

/-- Whether two numbers have values that compare in some way. -/
def compares
    (relation : Rat → Rat → Bool)
    (left right : Guarded) :
    Bool :=
  left.value?.any fun first => right.value?.any fun second => relation first second

/-- The quotient of two numbers; by zero there is none. -/
def quotient?
    (dividend divisor : Rat) :
    Option Rat :=
  if divisor = 0 then none else some (dividend / divisor)

/-- Exact numbers that stop having a value when they are divided by zero. -/
instance : Scalar Guarded where
  add := combine fun first second => some (first + second)
  sub := combine fun first second => some (first - second)
  mul := combine fun first second => some (first * second)
  div := combine quotient?
  le := fun left right => compares (fun first second => first ≤ second) left right = true
  lt := fun left right => compares (fun first second => first < second) left right = true
  decidableLE := fun _ _ => inferInstanceAs (Decidable (_ = true))
  decidableLT := fun _ _ => inferInstanceAs (Decidable (_ = true))
  ofNat := fun number => exact number
  ofFraction := fun numerator denominator => ⟨quotient? numerator denominator⟩
  emptySum := exact 0
  toRat? := value?

variable (first second : Rat)

theorem exact_add :
    exact first + exact second = exact (first + second) :=
  rfl

theorem exact_sub :
    exact first - exact second = exact (first - second) :=
  rfl

theorem exact_mul :
    exact first * exact second = exact (first * second) :=
  rfl

/-- What is divided keeps its value exactly if it is not divided by zero. -/
theorem exact_div_eq_exact_iff :
    exact first / exact second = exact (first / second) ↔ second ≠ 0 := by
  change (⟨quotient? first second⟩ : Guarded) = ⟨some (first / second)⟩ ↔ second ≠ 0
  unfold quotient?
  split
  · rename_i isZero
    simp [isZero]
  · rename_i nonzero
    simp [nonzero]

theorem exact_lt_exact_iff :
    exact first < exact second ↔ first < second :=
  decide_eq_true_iff

theorem zero_eq_exact :
    (Scalar.zero : Guarded) = exact Scalar.zero :=
  rfl

theorem one_eq_exact :
    (Scalar.one : Guarded) = exact Scalar.one :=
  rfl

theorem ofFraction_eq_exact
    (numerator : Int)
    {denominator : Nat}
    (nonzero : denominator ≠ 0) :
    (Scalar.ofFraction numerator denominator : Guarded) =
      exact (Scalar.ofFraction numerator denominator) := by
  change (⟨quotient? numerator denominator⟩ : Guarded) = ⟨some (mkRat numerator denominator)⟩
  rw [quotient?, if_neg (Nat.cast_ne_zero.mpr nonzero), Rat.mkRat_eq_div]

theorem positivePart_exact
    (value : Rat) :
    Scalar.positivePart (exact value) = exact (Scalar.positivePart value) := by
  unfold Scalar.positivePart
  rw [zero_eq_exact, apply_ite exact]
  exact if_congr (exact_lt_exact_iff _ _) rfl rfl

end Guarded
end WorkMarket
