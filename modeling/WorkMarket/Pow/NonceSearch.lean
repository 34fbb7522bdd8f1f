import WorkMarket.Pow.Candidate

/-!
# Searching for a nonce

The searcher tries one nonce after the other and counts its hashes.  The
Merkle root does not depend on the nonce, so it is computed once and only the
last bytes of the candidate are exchanged.
-/

namespace WorkMarket

/-- A count of the hashes computed so far. -/
structure HashMeter where
  /-- The hashes so far. -/
  count : Nat
deriving DecidableEq

namespace HashMeter

/-- Nothing hashed yet. -/
def fresh : HashMeter :=
  ⟨0⟩

/-- The number of nonces there are. -/
def nonceSpace : Nat :=
  UInt32.size

/-- Hash a candidate and compare the hash with the candidate's target. -/
def check
    (meter : HashMeter)
    (candidate : Candidate) :
    (Bool × Digest) × HashMeter :=
  let hash := candidate.hash
  ((candidate.target.isMetBy hash, hash), ⟨meter.count + 1⟩)

section Searching

variable {σ : Type} (check : σ → Candidate → (Bool × Digest) × σ)

/-- Try `remaining` nonces from `nonce` on, wrapping around.  Each candidate is
checked in the state that the check before it has left. -/
def scanWith : (remaining : Nat) → UInt32 → Candidate → σ → Option UInt32 × σ
  | 0, _, _, state => (none, state)
  | remaining + 1, nonce, candidate, state =>
      let candidate := candidate.setNonce nonce
      let ((meets, _), state) := check state candidate
      if meets then (some nonce, state) else scanWith remaining (nonce + 1) candidate state

/-- Try `count` nonces from the template's on, each nonce at most once, and
return the first solution.  An invalid puzzle is not tried at all. -/
def searchWith
    (state : σ)
    (puzzle : Puzzle)
    (template : Solution)
    (count : Nat) :
    Option Solution × σ :=
  if puzzle.isValid then
    let root := puzzle.merkleRoot template.extraNonce₁ template.extraNonce₂
    let candidate := Candidate.withRoot puzzle root template.timestamp template.nonce
    let (found, state) :=
      scanWith check (min count nonceSpace) template.nonce candidate state
    (found.map template.withNonce, state)
  else (none, state)

end Searching

/-- Scan with a meter that counts what is hashed. -/
def scan : (remaining : Nat) → UInt32 → Candidate → HashMeter → Option UInt32 × HashMeter :=
  scanWith check

/-- Search with a meter that counts what is hashed. -/
def search
    (meter : HashMeter)
    (puzzle : Puzzle)
    (template : Solution)
    (count : Nat) :
    Option Solution × HashMeter :=
  searchWith check meter puzzle template count

end HashMeter

end WorkMarket
