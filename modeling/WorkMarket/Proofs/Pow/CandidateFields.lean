import WorkMarket.Proofs.Pow.NonceSearch

/-!
# What a candidate tells

The six fields of a candidate lie side by side and fill its eighty bytes, so each
is read back as it was laid out, and a buffer is nothing but its fields.  The extra
nonces are in none of the fields.  They are hashed into the Merkle root, which tells
them as long as no two of the strings hashed on the way have the same hash.
-/

namespace WorkMarket

/-- No string of one list has the hash of another string of the other list. -/
def NoCollision
    (left right : List Bytes) :
    Prop :=
  ∀ first ∈ left, ∀ second ∈ right, hash256 first = hash256 second → first = second

instance (left right : List Bytes) : Decidable (NoCollision left right) :=
  inferInstanceAs
    (Decidable (∀ first ∈ left, ∀ second ∈ right, hash256 first = hash256 second → first = second))

namespace NoCollision

variable {first second : Bytes} {left right : List Bytes}

theorem head
    (apart : NoCollision (first :: left) (second :: right))
    (same : hash256 first = hash256 second) :
    first = second :=
  apart first List.mem_cons_self second List.mem_cons_self same

theorem tail
    (apart : NoCollision (first :: left) (second :: right)) :
    NoCollision left right :=
  fun one isLeft other isRight =>
    apart one (List.mem_cons_of_mem first isLeft) other (List.mem_cons_of_mem second isRight)

end NoCollision

namespace MerklePath

/-- A digest beside its neighbour, as the two are hashed. -/
def joined
    (index : Nat)
    (sibling current : Digest) :
    Bytes :=
  if index % 2 = 1 then sibling.toList ++ current.toList else current.toList ++ sibling.toList

theorem climb_cons
    (index : Nat)
    (sibling : Digest)
    (siblings : List Digest)
    (current : Digest) :
    climb index (sibling :: siblings) current =
      climb (index / 2) siblings (hash256 (joined index sibling current)) := by
  rw [climb, joined, apply_ite hash256]

/-- On either side of its neighbour a digest is told. -/
theorem joined_injective
    {index : Nat}
    {sibling left right : Digest}
    (same : joined index sibling left = joined index sibling right) :
    left = right := by
  apply FixedBytes.toList_injective
  unfold joined at same
  split at same
  · exact List.append_cancel_left same
  · exact List.append_cancel_right same

/-- What is hashed on the way from a leaf to the root. -/
def hashedAlong : Nat → List Digest → Digest → List Bytes
  | _, [], _ => []
  | index, sibling :: siblings, current =>
      joined index sibling current ::
        hashedAlong (index / 2) siblings (hash256 (joined index sibling current))

/-- Digests that climb to one root are the same, level by level from the root. -/
theorem eq_of_climb_eq
    {index : Nat}
    {siblings : List Digest}
    {left right : Digest}
    (apart : NoCollision (hashedAlong index siblings left) (hashedAlong index siblings right))
    (same : climb index siblings left = climb index siblings right) :
    left = right := by
  induction siblings generalizing index left right with
  | nil => exact same
  | cons sibling siblings inductionHypothesis =>
      rw [climb_cons, climb_cons] at same
      have above := inductionHypothesis apart.tail same
      exact joined_injective (apart.head above)

end MerklePath

namespace Solution

/-- The extra nonces have fixed sizes, so what is hashed of them tells them. -/
theorem extraNonces_eq_of_extraNonce_eq
    {left right : Solution}
    (same : left.extraNonce = right.extraNonce) :
    left.extraNonce₁ = right.extraNonce₁ ∧ left.extraNonce₂ = right.extraNonce₂ := by
  obtain ⟨first, second⟩ := List.append_inj same (by simp)
  exact ⟨Function.LeftInverse.injective LittleEndian.toUInt32_ofUInt32 first,
    Function.LeftInverse.injective LittleEndian.toUInt64_ofUInt64 second⟩

end Solution

namespace Puzzle

/-- What is hashed into the leaf. -/
def leaf
    (puzzle : Puzzle)
    (solution : Solution) :
    Bytes :=
  puzzle.header ++ solution.extraNonce ++ puzzle.body

/-- Every string that is hashed for the root of a solution, the leaf first. -/
def hashedFor
    (puzzle : Puzzle)
    (solution : Solution) :
    List Bytes :=
  puzzle.leaf solution :: MerklePath.hashedAlong puzzle.path.index.toNat puzzle.path.digests
    (hash256 (puzzle.leaf solution))

theorem merkleRoot_eq
    (puzzle : Puzzle)
    (solution : Solution) :
    puzzle.merkleRoot solution.extraNonce₁ solution.extraNonce₂ =
      puzzle.path.root (hash256 (puzzle.leaf solution)) := by
  simp only [merkleRoot, leaf, Solution.extraNonce, List.append_assoc]

/-- The root tells the extra nonces. -/
theorem extraNonces_eq_of_merkleRoot_eq
    {puzzle : Puzzle}
    {left right : Solution}
    (apart : NoCollision (puzzle.hashedFor left) (puzzle.hashedFor right))
    (same : puzzle.merkleRoot left.extraNonce₁ left.extraNonce₂ =
      puzzle.merkleRoot right.extraNonce₁ right.extraNonce₂) :
    left.extraNonce₁ = right.extraNonce₁ ∧ left.extraNonce₂ = right.extraNonce₂ := by
  rw [merkleRoot_eq, merkleRoot_eq] at same
  have leaves : puzzle.leaf left = puzzle.leaf right :=
    apart.head (MerklePath.eq_of_climb_eq apart.tail same)
  have withHeader := List.append_cancel_right leaves
  exact Solution.extraNonces_eq_of_extraNonce_eq (List.append_cancel_left withHeader)

end Puzzle

namespace Candidate

/-- A part between two others is found by their sizes. -/
theorem take_drop_append
    {before part behind : Bytes}
    {offset count : Nat}
    (starts : before.length = offset)
    (size : part.length = count) :
    ((before ++ (part ++ behind)).drop offset).take count = part := by
  rw [List.drop_left' starts, List.take_left' size]

section Fields

variable (puzzle : Puzzle) (root : Digest) (timestamp nonce : UInt32)

theorem category_withRoot :
    (withRoot puzzle root timestamp nonce).category = puzzle.category := by
  rw [category, toList_withRoot, beforeTarget]
  simp only [List.append_assoc]
  rw [List.take_left' (LittleEndian.length_ofInt32 _), LittleEndian.toInt32_ofInt32]

theorem content_withRoot :
    (withRoot puzzle root timestamp nonce).content = puzzle.content := by
  apply FixedBytes.toList_injective
  rw [content, FixedBytes.toList_slice, toList_withRoot, beforeTarget]
  simp only [List.append_assoc]
  exact take_drop_append (by simp) (by simp)

theorem merkleRoot_withRoot :
    (withRoot puzzle root timestamp nonce).merkleRoot = root := by
  apply FixedBytes.toList_injective
  rw [merkleRoot, FixedBytes.toList_slice, toList_withRoot, beforeTarget]
  simp only [List.append_assoc]
  rw [← List.append_assoc]
  exact take_drop_append (by simp) (by simp)

theorem timestamp_withRoot :
    (withRoot puzzle root timestamp nonce).timestamp = timestamp := by
  rw [Candidate.timestamp, toList_withRoot, beforeTarget, List.append_assoc, List.append_assoc,
    take_drop_append (by simp) (by simp), LittleEndian.toUInt32_ofUInt32]

end Fields

/-- A candidate laid out anew from what it tells; the rest of the puzzle does not
count. -/
def rebuild
    (candidate : Candidate)
    (puzzle : Puzzle) :
    Candidate :=
  withRoot
    { puzzle with
      category := candidate.category
      content := candidate.content
      target := candidate.target }
    candidate.merkleRoot candidate.timestamp candidate.nonce

/-- No byte of a candidate lies outside its fields. -/
theorem rebuild_eq_self
    (candidate : Candidate)
    (puzzle : Puzzle) :
    candidate.rebuild puzzle = candidate := by
  have category : LittleEndian.ofInt32 candidate.category = candidate.bytes.toList.take 4 :=
    LittleEndian.ofInt32_toInt32 _ (by simp)
  have timestamp :
      LittleEndian.ofUInt32 candidate.timestamp = (candidate.bytes.toList.drop 68).take 4 :=
    LittleEndian.ofUInt32_toUInt32 _ (by simp)
  have target : candidate.target.toBytes = (candidate.bytes.toList.drop 72).take 4 :=
    LittleEndian.ofUInt32_toUInt32 _ (by simp)
  have nonce : LittleEndian.ofUInt32 candidate.nonce = candidate.bytes.toList.drop 76 :=
    LittleEndian.ofUInt32_toUInt32 _ (by simp)
  have laidOut : (candidate.rebuild puzzle).bytes.toList = candidate.bytes.toList := by
    rw [rebuild, toList_withRoot, beforeTarget, category, timestamp, target, nonce, content,
      merkleRoot, FixedBytes.toList_slice, FixedBytes.toList_slice]
    -- Each field starts where the one before it ends.
    rw [← List.take_add, ← List.take_add, ← List.take_add, ← List.take_add,
      List.take_append_drop]
  exact congrArg Candidate.mk (FixedBytes.toList_injective laidOut)

/-- Whether a candidate shows the puzzle and the solution it is of. -/
structure Shows
    (candidate : Candidate)
    (puzzle : Puzzle)
    (solution : Solution) :
    Prop where
  category : candidate.category = puzzle.category
  content : candidate.content = puzzle.content
  merkleRoot : candidate.merkleRoot =
    puzzle.merkleRoot solution.extraNonce₁ solution.extraNonce₂
  timestamp : candidate.timestamp = solution.timestamp
  target : candidate.target.compact = puzzle.target.compact
  nonce : candidate.nonce = solution.nonce

theorem shows_ofSolution
    (puzzle : Puzzle)
    (solution : Solution) :
    (ofSolution puzzle solution).Shows puzzle solution where
  category := category_withRoot _ _ _ _
  content := content_withRoot _ _ _ _
  merkleRoot := merkleRoot_withRoot _ _ _ _
  timestamp := timestamp_withRoot _ _ _ _
  target := congrArg Target.compact (target_withRoot _ _ _ _)
  nonce := nonce_ofSolution _ _

/-- Without collisions on the way to the root, a candidate is of one solution. -/
theorem ofSolution_injective
    {puzzle : Puzzle}
    {left right : Solution}
    (apart : NoCollision (puzzle.hashedFor left) (puzzle.hashedFor right))
    (same : ofSolution puzzle left = ofSolution puzzle right) :
    left = right := by
  have leftShown := shows_ofSolution puzzle left
  rw [same] at leftShown
  have rightShown := shows_ofSolution puzzle right
  obtain ⟨first, second⟩ := Puzzle.extraNonces_eq_of_merkleRoot_eq apart
    (leftShown.merkleRoot.symm.trans rightShown.merkleRoot)
  cases left
  cases right
  simp only [Solution.mk.injEq]
  exact ⟨leftShown.timestamp.symm.trans rightShown.timestamp,
    leftShown.nonce.symm.trans rightShown.nonce, first, second⟩

/-- A candidate shows what it was laid out from and nothing else, and the nonce is
changed in place.  As long as no string hashed for one solution has the hash of
another string hashed for the other, two solutions of a puzzle have the same
candidate only if they are the same. -/
theorem ofSolution_identifies
    (puzzle : Puzzle)
    (solution : Solution) :
    (ofSolution puzzle solution).Shows puzzle solution ∧
      (∀ nonce, (ofSolution puzzle solution).setNonce nonce =
        ofSolution puzzle (solution.withNonce nonce)) ∧
      (∀ candidate : Candidate, candidate.rebuild puzzle = candidate) ∧
      ∀ other, NoCollision (puzzle.hashedFor solution) (puzzle.hashedFor other) →
        (ofSolution puzzle solution = ofSolution puzzle other ↔ solution = other) :=
  ⟨shows_ofSolution puzzle solution, setNonce_ofSolution puzzle solution,
    fun candidate => candidate.rebuild_eq_self puzzle,
    fun _ apart => ⟨ofSolution_injective apart, congrArg (ofSolution puzzle)⟩⟩

/-- A puzzle whose leaf has a neighbour on its right, and one on its left a level
above. -/
def betweenNeighbours : Puzzle :=
  ⟨-2, Digest.absent, ⟨0⟩, ⟨2, [FixedBytes.filled 32 1, FixedBytes.filled 32 2]⟩, [7], [8, 9]⟩

/-- Two solutions of it that differ in one bit of the extra nonces. -/
theorem ofSolution_identifies_betweenNeighbours :
    NoCollision (betweenNeighbours.hashedFor ⟨0, 0, 0, 0⟩)
        (betweenNeighbours.hashedFor ⟨0, 0, 0, 1⟩) ∧
      ofSolution betweenNeighbours ⟨0, 0, 0, 0⟩ ≠ ofSolution betweenNeighbours ⟨0, 0, 0, 1⟩ := by
  have apart : NoCollision (betweenNeighbours.hashedFor ⟨0, 0, 0, 0⟩)
      (betweenNeighbours.hashedFor ⟨0, 0, 0, 1⟩) := by
    decide +kernel
  obtain ⟨_, _, _, tellsApart⟩ := ofSolution_identifies betweenNeighbours ⟨0, 0, 0, 0⟩
  exact ⟨apart, fun same => absurd ((tellsApart _ apart).mp same) (by decide)⟩

end Candidate
end WorkMarket
