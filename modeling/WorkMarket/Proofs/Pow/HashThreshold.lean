import Mathlib.Algebra.Ring.Nat
import WorkMarket.Pow.Threshold

/-!
# Meeting a target is lying below its magnitude

Bytes are compared from the most significant one down, and the first
difference decides.  What lies below that byte is too small to make up for it,
so the comparison agrees with that of the numbers.  The magnitude is padded
with zeros to the size of a digest, which leaves its number alone; and a
magnitude that is too long for a digest lies above all of them.
-/

namespace WorkMarket
namespace LittleEndian

/-- What is appended stands above what was there. -/
theorem decode_append
    (low high : Bytes) :
    decode (low ++ high) = decode low + 256 ^ low.length * decode high := by
  induction low with
  | nil => simp
  | cons byte rest inductionHypothesis =>
      rw [List.cons_append, decode_cons, inductionHypothesis, decode_cons, List.length_cons,
        Nat.pow_succ', Nat.mul_add, Nat.mul_assoc, Nat.add_assoc]

theorem decode_replicate_zero
    (count : Nat) :
    decode (List.replicate count 0) = 0 := by
  induction count with
  | zero => rfl
  | succ count inductionHypothesis =>
      rw [List.replicate_succ, decode_cons, inductionHypothesis]
      rfl

/-- The fewest bytes are enough. -/
theorem lt_pow_minimalWidth
    (number : Nat) :
    number < 256 ^ minimalWidth number := by
  calc
    number < 2 ^ (number.log2 + 1) := Nat.lt_log2_self
    _ ≤ 2 ^ (8 * minimalWidth number) := by
      refine Nat.pow_le_pow_right (by decide) ?_
      unfold minimalWidth
      omega
    _ = 256 ^ minimalWidth number := Nat.pow_mul 2 8 (minimalWidth number)

/-- A byte less would not be. -/
theorem pow_le_of_lt_minimalWidth
    {width number : Nat}
    (positive : 0 < width)
    (narrow : width < minimalWidth number) :
    256 ^ width ≤ number := by
  have logarithm : 8 * width ≤ number.log2 := by
    unfold minimalWidth at narrow
    omega
  have nonzero : number ≠ 0 := by
    rintro rfl
    rw [Nat.log2_zero] at logarithm
    omega
  calc
    256 ^ width = 2 ^ (8 * width) := (Nat.pow_mul 2 8 width).symm
    _ ≤ 2 ^ number.log2 := Nat.pow_le_pow_right (by decide) logarithm
    _ ≤ number := Nat.log2_self_le nonzero

@[simp] theorem length_minimal
    (number : Nat) :
    (minimal number).length = minimalWidth number :=
  length_encode _ number

@[simp] theorem decode_minimal
    (number : Nat) :
    decode (minimal number) = number := by
  rw [minimal, decode_encode]
  exact Nat.mod_eq_of_lt (lt_pow_minimalWidth number)

/-- Numbers are ordered as their digits at one place are, whatever stands
below that place. -/
theorem add_mul_lt_add_mul
    {base low other digit otherDigit : Nat}
    (small : low < base)
    (smaller : digit < otherDigit) :
    low + base * digit < other + base * otherDigit := by
  calc
    low + base * digit < base + base * digit := Nat.add_lt_add_right small _
    _ = base * (digit + 1) := by rw [Nat.mul_succ, Nat.add_comm]
    _ ≤ base * otherDigit := Nat.mul_le_mul_left base smaller
    _ ≤ other + base * otherDigit := Nat.le_add_left _ other

end LittleEndian

/-- Comparing byte strings of one length from the top compares their
numbers. -/
theorem belowFromTop_iff
    (left right : Bytes)
    (sameLength : left.length = right.length) :
    belowFromTop left right = true ↔
      LittleEndian.decode left.reverse < LittleEndian.decode right.reverse := by
  induction left generalizing right with
  | nil =>
      obtain rfl : right = [] := List.eq_nil_of_length_eq_zero sameLength.symm
      simp [belowFromTop]
  | cons byte rest inductionHypothesis =>
      cases right with
      | nil => contradiction
      | cons otherByte otherRest =>
          have restLength : rest.length = otherRest.length := Nat.succ.inj sameLength
          have restBound := LittleEndian.decode_lt rest.reverse
          have otherBound := LittleEndian.decode_lt otherRest.reverse
          rw [List.length_reverse] at restBound otherBound
          rw [← restLength] at otherBound
          have split (top : UInt8) (bytes : Bytes) :
              LittleEndian.decode (top :: bytes).reverse =
                LittleEndian.decode bytes.reverse + 256 ^ bytes.length * top.toNat := by
            rw [List.reverse_cons, LittleEndian.decode_append, List.length_reverse]
            rfl
          rw [belowFromTop, split, split, ← restLength]
          by_cases below : byte < otherByte
          · rw [if_pos below]
            exact iff_of_true rfl
              (LittleEndian.add_mul_lt_add_mul restBound (UInt8.lt_iff_toNat_lt.mp below))
          · rw [if_neg below]
            by_cases above : otherByte < byte
            · rw [if_pos above]
              refine iff_of_false Bool.false_ne_true (Nat.not_lt_of_gt ?_)
              exact LittleEndian.add_mul_lt_add_mul otherBound (UInt8.lt_iff_toNat_lt.mp above)
            · rw [if_neg above, inductionHypothesis otherRest restLength]
              obtain rfl : byte = otherByte :=
                UInt8.le_antisymm (UInt8.not_lt.mp above) (UInt8.not_lt.mp below)
              exact (Nat.add_lt_add_iff_right).symm

namespace Target

/-- Nothing lies below the magnitude of an invalid target. -/
theorem isValid_of_lt_magnitude
    {target : Target}
    {number : Nat}
    (below : number < target.magnitude) :
    target.isValid = true := by
  unfold magnitude at below
  split at below
  · assumption
  · exact absurd below (Nat.not_lt_zero _)

/-- A hash meets a target exactly if its number lies strictly below the
magnitude.  No hash meets an invalid target, which has none. -/
theorem isMetBy_iff
    (target : Target)
    (hash : Digest) :
    target.isMetBy hash = true ↔ hash.toNat < target.magnitude := by
  simp only [isMetBy, magnitudeBytes, LittleEndian.length_minimal]
  split
  · next long =>
    refine iff_of_true rfl ?_
    have digestBound := LittleEndian.decode_lt hash.toList
    rw [FixedBytes.length_toList] at digestBound
    exact Nat.lt_of_lt_of_le digestBound
      (LittleEndian.pow_le_of_lt_minimalWidth (by decide) long)
  · next short =>
    rw [belowFromTop_iff, List.reverse_reverse, List.reverse_reverse,
      LittleEndian.decode_append, LittleEndian.decode_replicate_zero, Nat.mul_zero, Nat.add_zero,
      LittleEndian.decode_minimal]
    · rfl
    · simp only [List.length_reverse, FixedBytes.length_toList, List.length_append,
        LittleEndian.length_minimal, List.length_replicate]
      omega

end Target
end WorkMarket
