import Mathlib.Algebra.BigOperators.Group.List.Basic
import Mathlib.Algebra.Order.BigOperators.Group.List
import Mathlib.Algebra.Order.Field.Rat
import WorkMarket.Number.Scalar
import WorkMarket.Proofs.Market.KeyedEntries

/-!
# Exact sums

In exact arithmetic the order of the terms does not matter.  A sum over the
values of a finite map therefore changes by just the values that come and go.
-/

namespace WorkMarket

theorem foldl_add_eq
    (start : Rat)
    (values : List Rat) :
    values.foldl (· + ·) start = start + values.sum := by
  induction values generalizing start with
  | nil => simp
  | cons value rest inductionHypothesis =>
      rw [List.foldl_cons, inductionHypothesis, List.sum_cons, add_assoc]

theorem scalarSum_eq
    (values : List Rat) :
    Scalar.sum values = values.sum :=
  (foldl_add_eq 0 values).trans (zero_add _)

namespace Keyed

variable {κ β : Type} [DecidableEq κ] {map : Keyed κ β} {key : κ}

theorem sum_values_single
    (key : κ)
    (value : Rat) :
    (empty.put key value).values.sum = value := by
  have single : (empty.put key value).values = [value] := rfl
  rw [single, List.sum_singleton]

/-- A new key adds its value. -/
theorem sum_put_of_none
    (weight : β → Rat)
    (absent : map.get? key = none)
    (value : β) :
    ((map.put key value).values.map weight).sum =
      (map.values.map weight).sum + weight value := by
  rw [values, entries_put_of_get?_eq_none absent]
  simp [values]

/-- A value in the place of another adds the difference. -/
theorem sum_put_of_some
    (weight : β → Rat)
    {earlier : β}
    (found : map.get? key = some earlier)
    (value : β) :
    weight earlier + ((map.put key value).values.map weight).sum =
      weight value + (map.values.map weight).sum := by
  have entries := perm_entries_put found value
  exact ((entries.map Prod.snd).map weight).sum_eq

/-- A key that is taken away takes its value. -/
theorem sum_erase
    (weight : β → Rat)
    (distinct : map.keys.Nodup)
    {earlier : β}
    (found : map.get? key = some earlier) :
    weight earlier + ((map.erase key).values.map weight).sum = (map.values.map weight).sum := by
  have entries := perm_entries_erase distinct found
  exact ((entries.map Prod.snd).map weight).sum_eq

/-- Values that are not negative add up to no less when one is put. -/
theorem sum_put_le
    {map : Keyed κ Rat}
    (nonneg : ∀ value ∈ map.values, 0 ≤ value)
    (key : κ)
    (value : Rat) :
    (map.put key value).values.sum ≤ map.values.sum + value := by
  cases found : map.get? key with
  | none =>
      have total := sum_put_of_none id found value
      simp only [List.map_id, id_eq] at total
      exact le_of_eq total
  | some earlier =>
      have total := sum_put_of_some id found value
      simp only [List.map_id, id_eq] at total
      have present : earlier ∈ map.values := by
        obtain ⟨entry, isEntry, rfl⟩ := Option.map_eq_some_iff.mp found
        exact List.mem_map_of_mem (List.mem_of_find?_eq_some isEntry)
      have earlierNonneg := nonneg earlier present
      rw [add_comm map.values.sum, ← total]
      exact le_add_of_nonneg_left earlierNonneg

/-- Values that are not negative add up to no more when one is taken away. -/
theorem sum_erase_le
    {map : Keyed κ Rat}
    (nonneg : ∀ value ∈ map.values, 0 ≤ value)
    (key : κ) :
    (map.erase key).values.sum ≤ map.values.sum :=
  List.Sublist.sum_le_sum (List.filter_sublist.map Prod.snd) nonneg

end Keyed
end WorkMarket
