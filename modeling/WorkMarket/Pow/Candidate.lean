import WorkMarket.Pow.Puzzle
import WorkMarket.Pow.Threshold

/-!
# Candidates

A candidate is the buffer of eighty bytes whose double hash is compared with
the target: category, content, Merkle root, timestamp, target and nonce, with
numbers stored least significant byte first.  A proof pairs a puzzle with a
solution whose candidate is valid.
-/

namespace WorkMarket

/-- The eighty bytes that are hashed. -/
structure Candidate where
  /-- The buffer. -/
  bytes : FixedBytes 80
deriving DecidableEq, Inhabited

namespace Candidate

/-- Lay out a candidate over a known Merkle root. -/
def withRoot
    (puzzle : Puzzle)
    (root : Digest)
    (timestamp nonce : UInt32) :
    Candidate :=
  ⟨LittleEndian.ofInt32 puzzle.category ++ puzzle.content.toList ++ root.toList ++
      LittleEndian.ofUInt32 timestamp ++ puzzle.target.toBytes ++
      LittleEndian.ofUInt32 nonce,
    by simp⟩

/-- The candidate of a puzzle and a solution. -/
def ofSolution
    (puzzle : Puzzle)
    (solution : Solution) :
    Candidate :=
  withRoot puzzle (puzzle.merkleRoot solution.extraNonce₁ solution.extraNonce₂)
    solution.timestamp solution.nonce

/-- The category. -/
def category
    (candidate : Candidate) :
    Int32 :=
  LittleEndian.toInt32 (candidate.bytes.toList.take 4)

/-- The content. -/
def content
    (candidate : Candidate) :
    Digest :=
  candidate.bytes.slice 4 32 (by decide)

/-- The Merkle root. -/
def merkleRoot
    (candidate : Candidate) :
    Digest :=
  candidate.bytes.slice 36 32 (by decide)

/-- The timestamp. -/
def timestamp
    (candidate : Candidate) :
    UInt32 :=
  LittleEndian.toUInt32 ((candidate.bytes.toList.drop 68).take 4)

/-- The target. -/
def target
    (candidate : Candidate) :
    Target :=
  Target.ofBytes ((candidate.bytes.toList.drop 72).take 4)

/-- The nonce. -/
def nonce
    (candidate : Candidate) :
    UInt32 :=
  LittleEndian.toUInt32 (candidate.bytes.toList.drop 76)

/-- The candidate with another nonce in its last four bytes. -/
def setNonce
    (candidate : Candidate)
    (nonce : UInt32) :
    Candidate :=
  ⟨candidate.bytes.toList.take 76 ++ LittleEndian.ofUInt32 nonce, by simp⟩

/-- The double hash. -/
def hash
    (candidate : Candidate) :
    Digest :=
  hash256 candidate.bytes.toList

/-- A candidate is valid when its hash meets its own target. -/
def isValid
    (candidate : Candidate) :
    Bool :=
  candidate.target.isValid && candidate.target.isMetBy candidate.hash

/-- What a candidate shows of itself in diagnostics. -/
def describe
    (candidate : Candidate) :
    String :=
  "Candidate(" ++ Hex.encode candidate.bytes.toList ++ ")"

end Candidate

/-- A puzzle and a solution offered for it. -/
structure WorkProof where
  puzzle : Puzzle
  solution : Solution
deriving DecidableEq, Inhabited

namespace WorkProof

/-- The candidate that decides. -/
def candidate
    (proof : WorkProof) :
    Candidate :=
  Candidate.ofSolution proof.puzzle proof.solution

/-- The puzzle is well formed and the candidate is valid. -/
def isValid
    (proof : WorkProof) :
    Bool :=
  proof.puzzle.isValid && proof.candidate.isValid

end WorkProof

end WorkMarket
