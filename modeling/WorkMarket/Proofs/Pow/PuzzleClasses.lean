import WorkMarket.Pow.Puzzle

/-!
# Classes of puzzles

Puzzles are the same to whoever compares them if they differ in nothing but how
they encode the magnitude of the target.  The class of a puzzle has this magnitude
in the place of the target, and everything else of the puzzle.  Puzzles are
equivalent exactly if they have one class, so that to be equivalent is an
equivalence, and a hash that reads the class hashes equivalent puzzles alike.
-/

namespace WorkMarket
namespace Puzzle

/-- What equality and hashing of puzzles read: all of a puzzle, but only the
magnitude of the target. -/
structure Class where
  category : Int32
  content : Digest
  magnitude : Nat
  path : MerklePath
  header : Bytes
  body : Bytes
deriving DecidableEq

/-- The class of a puzzle. -/
def toClass
    (puzzle : Puzzle) :
    Class :=
  ⟨puzzle.category, puzzle.content, puzzle.target.magnitude, puzzle.path, puzzle.header,
    puzzle.body⟩

variable {left right : Puzzle}

/-- Equivalent puzzles are those of one class. -/
theorem equivalent_iff_toClass_eq
    : left.equivalent right = true ↔ left.toClass = right.toClass := by
  simp only [equivalent, Target.equivalent, toClass, Bool.and_eq_true, decide_eq_true_eq,
    Class.mk.injEq, and_assoc]

/-- A puzzle is equivalent to itself. -/
theorem equivalent_refl
    (puzzle : Puzzle) :
    puzzle.equivalent puzzle = true :=
  equivalent_iff_toClass_eq.mpr rfl

/-- Equivalent puzzles have the same header. -/
theorem header_eq_of_equivalent
    (same : left.equivalent right = true) :
    left.header = right.header :=
  congrArg Class.header (equivalent_iff_toClass_eq.mp same)

/-- Comparing puzzles is comparing their classes. -/
theorem equivalent_eq_decide
    (left right : Puzzle) :
    left.equivalent right = decide (left.toClass = right.toClass) := by
  rw [Bool.eq_iff_iff, decide_eq_true_eq, equivalent_iff_toClass_eq]

/-- Equivalent puzzles differ only in how they encode the magnitude of the
target. -/
theorem equivalent_iff_exists_target
    : left.equivalent right = true ↔
      ∃ target : Target, target.magnitude = left.target.magnitude ∧
        right = { left with target := target } := by
  rw [equivalent_iff_toClass_eq]
  constructor
  · intro same
    cases right
    simp only [toClass, Class.mk.injEq] at same
    obtain ⟨rfl, rfl, magnitude, rfl, rfl, rfl⟩ := same
    exact ⟨_, magnitude.symm, rfl⟩
  · rintro ⟨target, magnitude, rfl⟩
    simp only [toClass, magnitude]

end Puzzle
end WorkMarket
