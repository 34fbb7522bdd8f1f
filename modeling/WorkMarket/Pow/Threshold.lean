import WorkMarket.Pow.Target

/-!
# When a hash meets a target

A hash meets a target when the number it denotes lies strictly below the
target's magnitude.  The two are compared byte by byte, the most significant
byte first.
-/

namespace WorkMarket

/-- Compare two numbers given by their bytes, most significant byte first:
whether the first is strictly below the second. -/
def belowFromTop : Bytes → Bytes → Bool
  | left :: lefts, right :: rights =>
      if left < right then true
      else if right < left then false
      else belowFromTop lefts rights
  | _, _ => false

namespace Target

/-- The magnitude in the fewest bytes, least significant first. -/
def magnitudeBytes
    (target : Target) :
    Bytes :=
  LittleEndian.minimal target.magnitude

/-- Whether a hash meets the target.  A magnitude too long for a digest would
be met by every hash. -/
def isMetBy
    (target : Target)
    (hash : Digest) :
    Bool :=
  let bytes := target.magnitudeBytes
  if 32 < bytes.length then true
  else
    belowFromTop hash.toList.reverse
      (bytes ++ List.replicate (32 - bytes.length) 0).reverse

end Target

end WorkMarket
