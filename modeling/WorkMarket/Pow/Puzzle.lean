import WorkMarket.Pow.Target

/-!
# Puzzles and solutions

A puzzle fixes everything about a unit of work except what the worker varies:
the timestamp, the nonce and two extra nonces.  The extra nonces are hashed
between the puzzle's header and body into a leaf, and the leaf is carried up
a Merkle path to the root that a candidate commits to.
-/

namespace WorkMarket

/-- The way from a leaf to the root of a hash tree. -/
structure MerklePath where
  /-- The place of the leaf; its low bit tells the side at the lowest level. -/
  index : UInt32
  /-- The neighbours on the way, lowest first. -/
  digests : List Digest
deriving DecidableEq, Inhabited

namespace MerklePath

/-- The path of a tree with a single leaf. -/
def empty : MerklePath :=
  ⟨0, []⟩

/-- Hash a digest with its neighbours, one level after the other.  Where the
low bit of the index is set, the neighbour stands on the left. -/
def climb : Nat → List Digest → Digest → Digest
  | _, [], current => current
  | index, sibling :: siblings, current =>
      climb (index / 2) siblings
        (if index % 2 = 1 then hash256 (sibling.toList ++ current.toList)
        else hash256 (current.toList ++ sibling.toList))

/-- The root over a leaf. -/
def root
    (path : MerklePath)
    (leaf : Digest) :
    Digest :=
  climb path.index.toNat path.digests leaf

end MerklePath

/-- What a worker chooses. -/
structure Solution where
  timestamp : UInt32
  nonce : UInt32
  extraNonce₁ : UInt32
  extraNonce₂ : UInt64
deriving DecidableEq, Inhabited

namespace Solution

/-- The extra nonces as they are hashed. -/
def extraNonce
    (solution : Solution) :
    Bytes :=
  LittleEndian.ofUInt32 solution.extraNonce₁ ++ LittleEndian.ofUInt64 solution.extraNonce₂

/-- The same solution with another nonce. -/
def withNonce
    (solution : Solution)
    (nonce : UInt32) :
    Solution :=
  { solution with nonce := nonce }

end Solution

/-- Everything about a unit of work except the worker's choices. -/
structure Puzzle where
  category : Int32
  content : Digest
  target : Target
  path : MerklePath
  /-- The bytes hashed before the extra nonces. -/
  header : Bytes
  /-- The bytes hashed behind the extra nonces. -/
  body : Bytes
deriving DecidableEq, Inhabited

namespace Puzzle

/-- The puzzle that stands for none. -/
def absent : Puzzle :=
  ⟨0, Digest.absent, ⟨0⟩, MerklePath.empty, [], []⟩

/-- A puzzle can be solved only if its target is valid. -/
def isValid
    (puzzle : Puzzle) :
    Bool :=
  puzzle.target.isValid

/-- The root that a candidate commits to. -/
def merkleRoot
    (puzzle : Puzzle)
    (extraNonce₁ : UInt32)
    (extraNonce₂ : UInt64) :
    Digest :=
  puzzle.path.root
    (hash256 (puzzle.header ++ LittleEndian.ofUInt32 extraNonce₁ ++
      LittleEndian.ofUInt64 extraNonce₂ ++ puzzle.body))

/-- Whether two puzzles are the same but for the encoding of the target. -/
def equivalent
    (left right : Puzzle) :
    Bool :=
  left.category = right.category && left.content = right.content &&
    left.target.equivalent right.target && left.path = right.path &&
    left.header = right.header && left.body = right.body

end Puzzle

end WorkMarket
