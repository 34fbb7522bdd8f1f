import WorkMarket.Hash.Sha256
import WorkMarket.Hash.Ripemd160

/-!
# The two hashes of the chain

Scripts, content and candidates are named by the double SHA-256 of their
bytes; public keys by the RIPEMD-160 of their SHA-256.
-/

namespace WorkMarket

/-- SHA-256 of the SHA-256 of a byte string. -/
def hash256
    (bytes : Bytes) :
    FixedBytes 32 :=
  Sha256.hash (Sha256.hash bytes).toList

/-- RIPEMD-160 of the SHA-256 of a byte string. -/
def hash160
    (bytes : Bytes) :
    FixedBytes 20 :=
  Ripemd160.hash (Sha256.hash bytes).toList

end WorkMarket
