import Mathlib.Algebra.Ring.Rat
import WorkMarket.Number.Scalar
import WorkMarket.Pow.Target

/-!
# Running totals

A container that holds targets keeps the total of their difficulties beside them,
adds to it what comes and subtracts what goes.  Where sums are exact the total is
the sum of what is held, in whatever order things came and went.  Where sums are
rounded it may drift, but only as long as something is held: an empty container
has the total zero.
-/

namespace WorkMarket

/-- Whether sums are exact: the order of the terms does not matter, and subtraction
takes back what was added.  Nothing is said of products, quotients or views. -/
structure Scalar.AddsExactly (α : Type) [Scalar α] : Prop where
  add_right_comm : ∀ total first second : α, total + first + second = total + second + first
  add_sub_cancel : ∀ total amount : α, total + amount - amount = total
  emptySum_eq : (Scalar.emptySum : α) = Scalar.zero

namespace Scalar

theorem addsExactly_rat : AddsExactly Rat where
  add_right_comm := add_right_comm
  add_sub_cancel := add_sub_cancel_right
  emptySum_eq := rfl

/-- The zero of the doubles is the positive one. -/
theorem zero_float
    : (zero : Float) = 0.0 :=
  rfl

section Sums

variable {α : Type} [Scalar α]

theorem sum_concat
    (amounts : List α)
    (amount : α) :
    sum (amounts ++ [amount]) = sum amounts + amount := by
  simp [sum]

theorem AddsExactly.sum_perm
    (exact : AddsExactly α)
    {amounts others : List α}
    (same : amounts.Perm others) :
    sum amounts = sum others :=
  same.foldl_eq' (fun first _ second _ total => exact.add_right_comm total first second) _

theorem AddsExactly.sum_cons
    (exact : AddsExactly α)
    (amount : α)
    (amounts : List α) :
    sum (amount :: amounts) = sum amounts + amount := by
  rw [← sum_concat, exact.sum_perm (List.perm_append_singleton amount amounts)]

end Sums

end Scalar

/-- Whether a stored total is that of the targets held, each with the difficulty
that was noted for it.  What is noted is the view of the target's difficulty.  The
total is zero where nothing is held, however sums are rounded, and it is the sum of
what was noted where sums are exact. -/
structure IsTotalOf
    {α : Type}
    [Scalar α]
    (total : α)
    (held : List (Target × α)) : Prop where
  priced : ∀ entry ∈ held, entry.1.difficulty.map (Difficulty.view α) = .ok entry.2
  nothing : held = [] → total = Scalar.zero
  exact : Scalar.AddsExactly α → total = Scalar.sum (held.map Prod.snd)

namespace IsTotalOf

variable {α : Type} [Scalar α] {total amount : α} {target : Target}
  {held next : List (Target × α)}

theorem nil : IsTotalOf (Scalar.zero : α) [] where
  priced := by simp
  nothing := fun _ => rfl
  exact := fun exact => exact.emptySum_eq.symm

/-- The order of what is held does not matter. -/
theorem of_perm
    (isTotal : IsTotalOf total held)
    (same : next.Perm held) :
    IsTotalOf total next where
  priced := fun entry present => isTotal.priced entry (same.mem_iff.mp present)
  nothing := by
    rintro rfl
    exact isTotal.nothing same.nil_eq.symm
  exact := fun exact => by
    rw [exact.sum_perm (same.map Prod.snd)]
    exact isTotal.exact exact

/-- What comes is added. -/
theorem add
    (isTotal : IsTotalOf total held)
    (priced : target.difficulty.map (Difficulty.view α) = .ok amount)
    (comes : next.Perm ((target, amount) :: held)) :
    IsTotalOf (total + amount) next := by
  refine of_perm ⟨?_, fun nothing => absurd nothing (List.cons_ne_nil _ _), fun exact => ?_⟩ comes
  · intro entry present
    rcases List.mem_cons.mp present with rfl | before
    · exact priced
    · exact isTotal.priced entry before
  · rw [List.map_cons, exact.sum_cons, isTotal.exact exact]

/-- What goes is subtracted, unless nothing is left. -/
theorem leave
    (isTotal : IsTotalOf total held)
    (goes : held.Perm ((target, amount) :: next)) :
    IsTotalOf (if next.isEmpty then Scalar.zero else total - amount) next := by
  have before := isTotal.of_perm goes.symm
  by_cases empty : next = []
  · subst empty
    exact nil
  · rw [if_neg (by simpa using empty)]
    refine ⟨fun entry present => before.priced entry (List.mem_cons_of_mem _ present),
      fun nothing => absurd nothing empty, fun exact => ?_⟩
    rw [before.exact exact, List.map_cons, exact.sum_cons, exact.add_sub_cancel]

end IsTotalOf
end WorkMarket
