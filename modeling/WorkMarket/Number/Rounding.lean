/-!
# Division to the nearest whole number

`roundHalfEven` divides natural numbers and rounds the exact quotient to the
nearest whole number; a half goes to the even neighbour.
-/

namespace WorkMarket

/-- The whole number nearest to `numerator / denominator`; of two equally
near ones the even one. -/
def roundHalfEven
    (numerator denominator : Nat) :
    Nat :=
  let quotient := numerator / denominator
  let twice := 2 * (numerator % denominator)
  if twice < denominator then quotient
  else if denominator < twice then quotient + 1
  else if quotient % 2 = 0 then quotient
  else quotient + 1

end WorkMarket
