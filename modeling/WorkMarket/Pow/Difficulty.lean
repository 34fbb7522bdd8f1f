import WorkMarket.Number.Scalar
import WorkMarket.Text.Decimal.Style

/-!
# Difficulty

Difficulty is how many times harder a target is than the reference target.
It is kept as an exact fraction in lowest terms, so that sums over queues do
not drift; `view` is the rounded number that prices are computed from.
-/

namespace WorkMarket

/-- An exact fraction in lowest terms. -/
structure Difficulty where
  /-- The numerator carries the sign. -/
  numerator : Int
  /-- The denominator. -/
  denominator : Nat
  /-- There is something to divide by. -/
  denominator_pos : 0 < denominator
  /-- Nothing can be cancelled. -/
  coprime : numerator.natAbs.Coprime denominator
deriving DecidableEq

namespace Difficulty

/-- Cancel what numerator and denominator have in common. -/
def reduce
    (numerator : Int)
    (denominator : Nat)
    (positive : 0 < denominator) :
    Difficulty where
  numerator := numerator / (numerator.natAbs.gcd denominator : Nat)
  denominator := denominator / numerator.natAbs.gcd denominator
  denominator_pos :=
    Nat.div_pos (Nat.gcd_le_right _ positive) (Nat.gcd_pos_of_pos_right _ positive)
  coprime := by
    have divides : ((numerator.natAbs.gcd denominator : Nat) : Int) ∣ numerator :=
      Int.natAbs_dvd_natAbs.mp (by simpa using Nat.gcd_dvd_left _ _)
    rw [Int.natAbs_ediv_of_dvd divides, Int.natAbs_natCast]
    exact Nat.coprime_div_gcd_div_gcd (Nat.gcd_pos_of_pos_right _ positive)

/-- A whole number. -/
def ofInt
    (number : Int) :
    Difficulty :=
  ⟨number, 1, Nat.one_pos, Nat.coprime_one_right _⟩

/-- A fraction, unless its denominator is zero. -/
def ofFraction?
    (numerator : Int)
    (denominator : Nat) :
    Option Difficulty :=
  if positive : 0 < denominator then some (reduce numerator denominator positive) else none

/-- The magnitude of the reference target, of difficulty one. -/
def referenceMagnitude : Nat :=
  Nat.pow 2 224 - 1

/-- The difficulty of a target of so large a magnitude. -/
def ofMagnitude
    (magnitude : Nat)
    (positive : 0 < magnitude) :
    Difficulty :=
  reduce referenceMagnitude magnitude positive

/-- No difficulty. -/
def zero : Difficulty :=
  ofInt 0

/-- The smallest difficulty a job may have. -/
def minimum : Difficulty :=
  ofInt 1

instance : Inhabited Difficulty := ⟨zero⟩

/-- Whether there is no difficulty. -/
def isZero
    (difficulty : Difficulty) :
    Bool :=
  difficulty.numerator = 0

/-- Whether the fraction is below zero. -/
def isNegative
    (difficulty : Difficulty) :
    Bool :=
  difficulty.numerator < 0

/-- The sum of two fractions. -/
def add
    (left right : Difficulty) :
    Difficulty :=
  reduce (left.numerator * right.denominator + right.numerator * left.denominator)
    (left.denominator * right.denominator)
    (Nat.mul_pos left.denominator_pos right.denominator_pos)

/-- The difference of two fractions. -/
def sub
    (left right : Difficulty) :
    Difficulty :=
  reduce (left.numerator * right.denominator - right.numerator * left.denominator)
    (left.denominator * right.denominator)
    (Nat.mul_pos left.denominator_pos right.denominator_pos)

/-- The product of two fractions. -/
def mul
    (left right : Difficulty) :
    Difficulty :=
  reduce (left.numerator * right.numerator) (left.denominator * right.denominator)
    (Nat.mul_pos left.denominator_pos right.denominator_pos)

/-- The quotient of two fractions, unless the divisor is zero.  The sign of
the divisor moves to the numerator. -/
def div?
    (left right : Difficulty) :
    Option Difficulty :=
  if nonzero : right.numerator = 0 then none
  else
    let numerator := left.numerator * right.denominator
    some (reduce (if right.isNegative then -numerator else numerator)
      (left.denominator * right.numerator.natAbs)
      (Nat.mul_pos left.denominator_pos (Int.natAbs_pos.mpr nonzero)))

instance : Add Difficulty := ⟨add⟩

instance : Sub Difficulty := ⟨sub⟩

instance : Mul Difficulty := ⟨mul⟩

/-- The order of two fractions, by cross multiplication. -/
def order
    (left right : Difficulty) :
    Ordering :=
  compare (left.numerator * right.denominator) (right.numerator * left.denominator)

/-- The exact value. -/
def toRat
    (difficulty : Difficulty) :
    Rat :=
  mkRat difficulty.numerator difficulty.denominator

/-- The number that prices are computed from. -/
def view
    (α : Type)
    [Scalar α]
    (difficulty : Difficulty) :
    α :=
  Scalar.ofFraction difficulty.numerator difficulty.denominator

/-- The text of a difficulty: whole numbers exactly, fractions to six places. -/
def describe
    (difficulty : Difficulty) :
    String :=
  if difficulty.denominator = 1 then toString difficulty.numerator
  else Decimal.fixed 6 (difficulty.view Float)

end Difficulty

end WorkMarket
