import WorkMarket.Number.Binary64
import WorkMarket.Number.Duration

/-!
# Scalars

Prices, profitabilities, hashpower and sums of difficulties are computed with
scalars.  The pool runs on doubles; the same rules over the rational numbers
say what they mean when nothing is rounded.  A rule is written once, for every
`Scalar`.
-/

namespace WorkMarket

/-- Numbers that the rules of the market compute with. -/
class Scalar (α : Type) extends Add α, Sub α, Mul α, Div α, LE α, LT α where
  /-- Comparison can be computed. -/
  decidableLE : DecidableLE α
  /-- Strict comparison can be computed. -/
  decidableLT : DecidableLT α
  /-- The scalar nearest to a natural number. -/
  ofNat : Nat → α
  /-- The scalar view of a fraction. -/
  ofFraction : Int → Nat → α
  /-- The sum of nothing, which no addition notices. -/
  emptySum : α
  /-- The exact value, where there is one. -/
  toRat? : α → Option Rat

namespace Scalar

attribute [reducible, instance] decidableLE decidableLT

variable {α : Type} [Scalar α]

/-- The scalar zero. -/
def zero : α :=
  ofNat 0

/-- The scalar one. -/
def one : α :=
  ofNat 1

/-- Whether two scalars are equal as numbers, which zeros of either sign are and
what is no number never is. -/
def same
    (left right : α) :
    Bool :=
  left ≤ right && right ≤ left

/-- The sum of a list, from the left. -/
def sum
    (values : List α) :
    α :=
  values.foldl (· + ·) emptySum

/-- A value where it is positive, and zero otherwise. -/
def positivePart
    (value : α) :
    α :=
  if zero < value then value else zero

/-- The largest draw: one less the distance from one to the next double. -/
def largestDraw : α :=
  one - one / ofNat Binary64.fractionRange

/-- A value moved into an interval. -/
def clamp
    (lower upper value : α) :
    α :=
  if value < lower then lower else if upper < value then upper else value

/-- The duration nearest to so many seconds. -/
def toDuration?
    (seconds : α) :
    Option Duration :=
  (toRat? seconds).bind Duration.ofRational?

end Scalar

/-- Doubles, whose sums start from the zero that addition does not notice. -/
instance : Scalar Float where
  decidableLE := inferInstance
  decidableLT := inferInstance
  ofNat := Binary64.ofNat
  ofFraction := Binary64.ofFraction
  emptySum := -0.0
  toRat? := Binary64.toRat?

/-- Exact numbers. -/
instance : Scalar Rat where
  decidableLE := inferInstance
  decidableLT := inferInstance
  ofNat := fun number => (number : Rat)
  ofFraction := mkRat
  emptySum := 0
  toRat? := some

end WorkMarket
