import WorkMarket.Pow.NonceSearch
import WorkMarket.Proofs.Pow.HashThreshold

/-!
# Checking a hash

Three bytes of digits over at most twenty-nine of zeros fit a digest, so no
magnitude is too long to be compared byte by byte, and the comparison is that of
the numbers.  What meets a target thereby shows the target to be valid: looking at
the validity first, as candidates do, decides nothing more.
-/

namespace WorkMarket
namespace Target

/-- No magnitude is larger than that of the easiest target, which has the largest
exponent and digits. -/
theorem magnitude_le_easiest
    (target : Target) :
    target.magnitude ≤ easiest.magnitude := by
  unfold magnitude
  split
  · rename_i valid
    simp only [isValid, Bool.and_eq_true, decide_eq_true_eq] at valid
    have exponent : target.exponent - minExponent ≤ 29 := by
      have largest : target.exponent ≤ 32 := valid.1.2
      have smallest : minExponent = 3 := rfl
      omega
    have digits : target.digits ≤ 0xffffff := Nat.le_of_lt_succ (Nat.mod_lt _ (by decide))
    exact Nat.mul_le_mul digits (Nat.pow_le_pow_right (by decide) exponent)
  · exact Nat.zero_le _

/-- Every magnitude fits a digest. -/
theorem magnitude_lt
    (target : Target) :
    target.magnitude < 256 ^ 32 :=
  Nat.lt_of_le_of_lt target.magnitude_le_easiest (by decide)

/-- So it is never too long to be compared byte by byte. -/
theorem length_magnitudeBytes_le
    (target : Target) :
    target.magnitudeBytes.length ≤ 32 := by
  rw [magnitudeBytes, LittleEndian.length_minimal]
  by_contra long
  have large := LittleEndian.pow_le_of_lt_minimalWidth (by decide) (Nat.not_le.mp long)
  exact absurd target.magnitude_lt (Nat.not_lt.mpr large)

theorem isMetBy_eq_false_of_invalid
    {target : Target}
    (invalid : target.isValid = false)
    (hash : Digest) :
    target.isMetBy hash = false := by
  rw [Bool.eq_false_iff]
  intro meets
  have below := (target.isMetBy_iff hash).mp meets
  rw [isValid_of_lt_magnitude below] at invalid
  contradiction

/-- Whether a target tells hashes apart by their numbers: it is met below its
magnitude and nowhere else, an invalid target by no hash, no magnitude is met for
its length alone, and a larger magnitude is met by no fewer hashes. -/
structure ComparesNumbers (target : Target) : Prop where
  met_iff : ∀ hash : Digest, target.isMetBy hash = true ↔ hash.toNat < target.magnitude
  unmet : target.isValid = false → ∀ hash, target.isMetBy hash = false
  short : target.magnitudeBytes.length ≤ 32
  monotone : ∀ easier : Target, target.magnitude ≤ easier.magnitude →
    ∀ hash, target.isMetBy hash = true → easier.isMetBy hash = true

end Target

namespace Candidate

/-- A hash that meets the candidate's target shows the target to be valid. -/
theorem isMetBy_eq_isValid
    (candidate : Candidate) :
    candidate.target.isMetBy candidate.hash = candidate.isValid := by
  unfold isValid
  cases valid : candidate.target.isValid with
  | true => rw [Bool.true_and]
  | false => rw [Bool.false_and, Target.isMetBy_eq_false_of_invalid valid]

end Candidate

namespace HashMeter

/-- Every target compares numbers, whatever its encoding, and the searcher's check
of a candidate answers whether the candidate is valid. -/
theorem check_comparesNumbers
    (meter : HashMeter)
    (target : Target)
    (candidate : Candidate) :
    target.ComparesNumbers ∧ (meter.check candidate).1.1 = candidate.isValid := by
  refine ⟨⟨target.isMetBy_iff, Target.isMetBy_eq_false_of_invalid,
    target.length_magnitudeBytes_le, ?_⟩, candidate.isMetBy_eq_isValid⟩
  intro easier ordered hash meets
  have below := (target.isMetBy_iff hash).mp meets
  exact (easier.isMetBy_iff hash).mpr (Nat.lt_of_lt_of_le below ordered)

end HashMeter
end WorkMarket
