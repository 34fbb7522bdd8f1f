import Mathlib.Data.List.Pairwise
import Mathlib.Logic.Function.Basic
import WorkMarket.Market.Distribution
import WorkMarket.Proofs.Number.ExactSums
import WorkMarket.Proofs.Pow.PuzzleClasses
import WorkMarket.Proofs.Work.TargetEncodings

/-!
# The tally of hashpower by puzzle

Adding hashpower either raises the share of an equivalent key or begins a share,
and touches nothing else.  So the keys have each class of the puzzles worked on
once.  What is left of a distribution when only some classes are looked at is the
distribution of the workers on them, and shares add up to what the workers have:
together these say what the share of each key is.  The same fact puts every share
where a table that looks puzzles up by a hash of their classes looks for it.
-/

namespace WorkMarket
namespace Distribution

section Keys

variable {α : Type} [Scalar α]

/-- The puzzles that shares stand under. -/
def keys
    (shares : List (Puzzle × α)) :
    List Puzzle :=
  shares.map Prod.fst

/-- Hashpower is added to the first share with an equivalent key, or begins a share
at the end if there is none. -/
theorem add_cases
    (puzzle : Puzzle)
    (hashpower : α)
    (shares : List (Puzzle × α)) :
    (∃ before share behind, shares = before ++ share :: behind ∧
        share.1.equivalent puzzle = true ∧
        add puzzle hashpower shares = before ++ (share.1, share.2 + hashpower) :: behind) ∨
      (∀ key ∈ keys shares, key.equivalent puzzle = false) ∧
        add puzzle hashpower shares = shares ++ [(puzzle, Scalar.zero + hashpower)] := by
  induction shares with
  | nil => exact Or.inr ⟨by simp [keys], rfl⟩
  | cons first rest inductionHypothesis =>
      unfold add
      by_cases here : first.1.equivalent puzzle = true
      · rw [if_pos here]
        exact Or.inl ⟨[], first, rest, rfl, here, rfl⟩
      · rw [if_neg here]
        rcases inductionHypothesis with
          ⟨before, share, behind, rfl, found, added⟩ | ⟨missed, added⟩
        · exact Or.inl ⟨first :: before, share, behind, rfl, found, by rw [added]; rfl⟩
        · refine Or.inr ⟨?_, by rw [added]; rfl⟩
          exact List.forall_mem_cons.mpr ⟨Bool.eq_false_of_not_eq_true here, missed⟩

/-- Whether keys have each class of some puzzles exactly once, and no other. -/
structure Represents
    (keys puzzles : List Puzzle) : Prop where
  /-- No two keys are of one class. -/
  apart : keys.Pairwise fun key other => key.equivalent other = false
  /-- The class of each puzzle has a key. -/
  covers : ∀ puzzle ∈ puzzles, ∃ key ∈ keys, key.equivalent puzzle = true
  /-- Each key is one of the puzzles. -/
  chosen : keys ⊆ puzzles

/-- One more puzzle either has an equivalent key or becomes a key. -/
theorem Represents.add
    {shares : List (Puzzle × α)}
    {puzzles : List Puzzle}
    (represents : Represents (keys shares) puzzles)
    (puzzle : Puzzle)
    (hashpower : α) :
    Represents (keys (add puzzle hashpower shares)) (puzzles ++ [puzzle]) := by
  rcases add_cases puzzle hashpower shares with
    ⟨before, share, behind, rfl, found, added⟩ | ⟨missed, added⟩
  -- A share that is raised keeps its key; one that is begun has a class of its own.
  · have sameKeys : keys (Distribution.add puzzle hashpower (before ++ share :: behind)) =
        keys (before ++ share :: behind) := by
      rw [added, keys, keys, List.map_append, List.map_append, List.map_cons, List.map_cons]
    have isKey : share.1 ∈ keys (before ++ share :: behind) :=
      List.mem_map_of_mem List.mem_append_cons_self
    rw [sameKeys]
    refine ⟨represents.apart, ?_, List.subset_append_of_subset_left _ represents.chosen⟩
    exact List.forall_mem_append.mpr ⟨represents.covers,
      List.forall_mem_singleton.mpr ⟨share.1, isKey, found⟩⟩
  · have newKeys : keys (Distribution.add puzzle hashpower shares) = keys shares ++ [puzzle] := by
      rw [added, keys, keys, List.map_append, List.map_singleton]
    rw [newKeys]
    refine ⟨?_, ?_, ?_⟩
    · refine List.pairwise_append.mpr ⟨represents.apart, List.pairwise_singleton _ _, ?_⟩
      intro key isKey other isOther
      rw [List.mem_singleton.mp isOther]
      exact missed key isKey
    · refine List.forall_mem_append.mpr ⟨fun other present => ?_, ?_⟩
      · obtain ⟨key, isKey, same⟩ := represents.covers other present
        exact ⟨key, List.mem_append_left _ isKey, same⟩
      · exact List.forall_mem_singleton.mpr
          ⟨puzzle, List.mem_append_right _ (List.mem_singleton_self _), puzzle.equivalent_refl⟩
    · exact List.append_subset.mpr ⟨List.subset_append_of_subset_left _ represents.chosen,
        List.subset_append_right _ _⟩

/-- One more worker adds its hashpower. -/
theorem ofWorkers_append_singleton
    (workers : List (Working α))
    (worker : Working α) :
    ofWorkers (workers ++ [worker]) = add worker.puzzle worker.hashpower (ofWorkers workers) := by
  simp only [ofWorkers, List.foldl_append, List.foldl_cons, List.foldl_nil]

/-- The keys have each class of the puzzles worked on once. -/
theorem represents_keys_ofWorkers
    (workers : List (Working α)) :
    Represents (keys (ofWorkers workers)) (workers.map Working.puzzle) := by
  induction workers using List.reverseRecOn with
  | nil => exact ⟨List.Pairwise.nil, by simp, List.nil_subset _⟩
  | append_singleton workers worker inductionHypothesis =>
      rw [ofWorkers_append_singleton, List.map_append, List.map_singleton]
      exact inductionHypothesis.add worker.puzzle worker.hashpower

end Keys

section Classes

variable {α : Type}

/-- The shares whose keys are of some classes. -/
def among
    (chosen : Puzzle.Class → Bool)
    (shares : List (Puzzle × α)) :
    List (Puzzle × α) :=
  shares.filter fun share => chosen share.1.toClass

/-- A key is the only one of its class. -/
theorem among_eq_singleton
    {shares : List (Puzzle × α)}
    (apart : (keys shares).Pairwise fun key other => key.equivalent other = false)
    {share : Puzzle × α}
    (present : share ∈ shares) :
    among (fun other => share.1.toClass = other) shares = [share] := by
  obtain ⟨before, behind, rfl⟩ := List.append_of_mem present
  simp only [Puzzle.equivalent_eq_decide, decide_eq_false_iff_not, keys, List.map_append,
    List.map_cons, List.pairwise_append, List.pairwise_cons, List.forall_mem_map,
    List.forall_mem_cons] at apart
  obtain ⟨-, ⟨differs, -⟩, others⟩ := apart
  have none_before : before.filter (fun other => share.1.toClass = other.1.toClass) = [] :=
    List.filter_eq_nil_iff.mpr fun other earlier same =>
      (others other earlier).1 (of_decide_eq_true same).symm
  have none_behind : behind.filter (fun other => share.1.toClass = other.1.toClass) = [] :=
    List.filter_eq_nil_iff.mpr fun other later same =>
      differs other later (of_decide_eq_true same)
  have kept : (share :: behind).filter (fun other => share.1.toClass = other.1.toClass) =
      share :: behind.filter fun other => share.1.toClass = other.1.toClass :=
    List.filter_cons_of_pos (by simp)
  rw [among, List.filter_append, none_before, kept, none_behind, List.nil_append]

variable [Scalar α]

/-- What is added within some classes is added to the shares of these. -/
theorem among_add_of_chosen
    {chosen : Puzzle.Class → Bool}
    {puzzle : Puzzle}
    (inside : chosen puzzle.toClass = true)
    (hashpower : α)
    (shares : List (Puzzle × α)) :
    among chosen (add puzzle hashpower shares) = add puzzle hashpower (among chosen shares) := by
  induction shares with
  | nil => simp [among, add, inside]
  | cons share rest inductionHypothesis =>
      unfold among at inductionHypothesis ⊢
      by_cases here : share.1.equivalent puzzle = true
      · have kept : chosen share.1.toClass = true := by
          rw [Puzzle.equivalent_iff_toClass_eq.mp here, inside]
        simp [add, here, kept]
      · cases kept : chosen share.1.toClass <;>
          simp [add, here, kept, inductionHypothesis]

/-- What is added elsewhere is not seen there. -/
theorem among_add_of_not_chosen
    {chosen : Puzzle.Class → Bool}
    {puzzle : Puzzle}
    (outside : chosen puzzle.toClass = false)
    (hashpower : α)
    (shares : List (Puzzle × α)) :
    among chosen (add puzzle hashpower shares) = among chosen shares := by
  rcases add_cases puzzle hashpower shares with
    ⟨before, share, behind, rfl, found, added⟩ | ⟨-, added⟩
  · rw [Puzzle.equivalent_iff_toClass_eq] at found
    rw [added]
    simp [among, found, outside]
  · rw [added]
    simp [among, outside]

/-- Only the workers on puzzles of some classes make up the shares of these. -/
theorem among_ofWorkers
    (chosen : Puzzle.Class → Bool)
    (workers : List (Working α)) :
    among chosen (ofWorkers workers) =
      ofWorkers (workers.filter fun worker => chosen worker.puzzle.toClass) := by
  induction workers using List.reverseRecOn with
  | nil => rfl
  | append_singleton workers worker inductionHypothesis =>
      rw [ofWorkers_append_singleton, List.filter_append]
      cases inside : chosen worker.puzzle.toClass with
      | false =>
          rw [among_add_of_not_chosen inside, inductionHypothesis]
          simp [inside]
      | true =>
          rw [among_add_of_chosen inside, inductionHypothesis]
          simp [inside, ofWorkers_append_singleton]

end Classes

section Buckets

variable {α κ : Type} [Scalar α] [DecidableEq κ]

/-- The hashpower on each puzzle in a table with a bucket for each hash.  A puzzle
is looked for only in the bucket of its hash. -/
def inBuckets
    (hash : Puzzle → κ)
    (workers : List (Working α)) :
    κ → List (Puzzle × α) :=
  workers.foldl
    (fun buckets worker => Function.update buckets (hash worker.puzzle)
      (add worker.puzzle worker.hashpower (buckets (hash worker.puzzle))))
    fun _ => []

/-- A bucket is the distribution of the workers on puzzles of its hash. -/
theorem inBuckets_eq_ofWorkers
    (hash : Puzzle → κ)
    (workers : List (Working α))
    (code : κ) :
    inBuckets hash workers code =
      ofWorkers (workers.filter fun worker => hash worker.puzzle = code) := by
  induction workers using List.reverseRecOn with
  | nil => rfl
  | append_singleton workers worker inductionHypothesis =>
      have step : inBuckets hash (workers ++ [worker]) = Function.update
          (inBuckets hash workers) (hash worker.puzzle)
          (add worker.puzzle worker.hashpower (inBuckets hash workers (hash worker.puzzle))) := by
        simp only [inBuckets, List.foldl_append, List.foldl_cons, List.foldl_nil]
      rw [step, List.filter_append]
      by_cases hashed : hash worker.puzzle = code
      · subst hashed
        rw [Function.update_self, inductionHypothesis]
        simp [ofWorkers_append_singleton]
      · rw [Function.update_of_ne (Ne.symm hashed), inductionHypothesis]
        simp [hashed]

/-- Where equivalent puzzles have one hash, each bucket has the shares of its
hash. -/
theorem inBuckets_toClass
    (hash : Puzzle.Class → κ)
    (workers : List (Working α))
    (code : κ) :
    inBuckets (fun puzzle => hash puzzle.toClass) workers code =
      among (fun kind => hash kind = code) (ofWorkers workers) := by
  rw [inBuckets_eq_ofWorkers, among_ofWorkers]

end Buckets

section Sums

variable {workers : List (Working Rat)} {shares : List (Puzzle × Rat)}

/-- What is added makes the sum so much larger. -/
theorem sum_add
    (puzzle : Puzzle)
    (hashpower : Rat)
    (shares : List (Puzzle × Rat)) :
    ((add puzzle hashpower shares).map Prod.snd).sum =
      (shares.map Prod.snd).sum + hashpower := by
  rcases add_cases puzzle hashpower shares with
    ⟨before, share, behind, rfl, -, added⟩ | ⟨-, added⟩
  · rw [added]
    simp only [List.map_append, List.map_cons, List.sum_append, List.sum_cons]
    rw [add_right_comm share.2, ← add_assoc]
  · have begun : (Scalar.zero : Rat) + hashpower = hashpower := zero_add hashpower
    rw [added, begun]
    simp only [List.map_append, List.map_singleton, List.sum_append, List.sum_singleton]

/-- The shares add up to what the workers have. -/
theorem sum_ofWorkers
    (workers : List (Working Rat)) :
    ((ofWorkers workers).map Prod.snd).sum = (workers.map Working.hashpower).sum := by
  induction workers using List.reverseRecOn with
  | nil => rfl
  | append_singleton workers worker inductionHypothesis =>
      rw [ofWorkers_append_singleton, sum_add, inductionHypothesis, List.map_append,
        List.sum_append, List.map_singleton, List.sum_singleton]

/-- Whether shares tell all of what workers have, by the classes of the puzzles that
they are on. -/
structure Tallies
    (shares : List (Puzzle × Rat))
    (workers : List (Working Rat)) : Prop where
  /-- The classes of the puzzles worked on have one key each. -/
  represents : Represents (keys shares) (workers.map Working.puzzle)
  /-- A share is the hashpower of all workers on puzzles equivalent to its key. -/
  value_eq : ∀ share ∈ shares, share.2 =
    ((workers.filter fun worker => share.1.equivalent worker.puzzle).map Working.hashpower).sum
  /-- The shares add up to the hashpower of all workers. -/
  sum_eq : (shares.map Prod.snd).sum = totalHashpower workers

theorem tallies_ofWorkers
    (workers : List (Working Rat)) :
    Tallies (ofWorkers workers) workers where
  represents := represents_keys_ofWorkers workers
  value_eq := by
    intro share present
    -- Those who work on the class of a key have a distribution of one share only, whose
    -- sum is its value.
    have alone := among_eq_singleton (represents_keys_ofWorkers workers).apart present
    rw [among_ofWorkers] at alone
    have total := sum_ofWorkers (workers.filter fun worker =>
      share.1.toClass = worker.puzzle.toClass)
    rw [alone, List.map_singleton, List.sum_singleton] at total
    simpa only [Puzzle.equivalent_eq_decide] using total
  sum_eq := by rw [sum_ofWorkers, totalHashpower, scalarSum_eq]

/-- The order of the workers makes no difference to what their tallies are. -/
theorem Tallies.of_perm
    {other : List (Working Rat)}
    (tallies : Tallies shares workers)
    (reordered : workers.Perm other) :
    Tallies shares other where
  represents := by
    have samePuzzles := reordered.map Working.puzzle
    refine ⟨tallies.represents.apart, fun puzzle present => ?_, fun key isKey => ?_⟩
    · exact tallies.represents.covers puzzle (samePuzzles.mem_iff.mpr present)
    · exact samePuzzles.mem_iff.mp (tallies.represents.chosen isKey)
  value_eq := by
    intro share present
    rw [tallies.value_eq share present]
    exact ((reordered.filter _).map Working.hashpower).sum_eq
  sum_eq := by
    rw [tallies.sum_eq, totalHashpower, totalHashpower, scalarSum_eq, scalarSum_eq]
    exact (reordered.map Working.hashpower).sum_eq

/-- The shares with the classes of their keys in place of these. -/
def byClass
    (shares : List (Puzzle × Rat)) :
    List (Puzzle.Class × Rat) :=
  shares.map fun share => (share.1.toClass, share.2)

/-- No class comes twice. -/
theorem Tallies.nodup_byClass
    (tallies : Tallies shares workers) :
    (byClass shares).Nodup := by
  have apart := tallies.represents.apart
  simp only [keys, List.pairwise_map, Puzzle.equivalent_eq_decide,
    decide_eq_false_iff_not] at apart
  refine List.Nodup.of_map Prod.fst ?_
  rw [byClass, List.map_map]
  exact List.pairwise_map.mpr apart

/-- What a tally says of a class, every other tally says of it too. -/
theorem Tallies.byClass_subset
    {other : List (Puzzle × Rat)}
    (tallies : Tallies shares workers)
    (otherTallies : Tallies other workers) :
    byClass shares ⊆ byClass other := by
  intro entry listed
  obtain ⟨share, present, rfl⟩ := List.mem_map.mp listed
  have isPuzzle := tallies.represents.chosen (List.mem_map_of_mem present)
  obtain ⟨_, isKey, same⟩ := otherTallies.represents.covers share.1 isPuzzle
  obtain ⟨counterpart, counterpartPresent, rfl⟩ := List.mem_map.mp isKey
  rw [Puzzle.equivalent_iff_toClass_eq] at same
  have sameValue : counterpart.2 = share.2 := by
    rw [otherTallies.value_eq counterpart counterpartPresent, tallies.value_eq share present]
    simp only [Puzzle.equivalent_eq_decide, same]
  exact List.mem_map.mpr ⟨counterpart, counterpartPresent, Prod.ext same sameValue⟩

/-- Tallies of the same workers differ only in their order and in the choice of the
keys. -/
theorem Tallies.perm_byClass
    {other : List (Puzzle × Rat)}
    (tallies : Tallies shares workers)
    (otherTallies : Tallies other workers) :
    (byClass shares).Perm (byClass other) := by
  refine (List.perm_ext_iff_of_nodup tallies.nodup_byClass otherTallies.nodup_byClass).mpr ?_
  intro entry
  exact ⟨fun listed => tallies.byClass_subset otherTallies listed,
    fun listed => otherTallies.byClass_subset tallies listed⟩

end Sums

/-- A distribution loses no hashpower.  Puzzles are the same if they differ only in
how they encode the magnitude of the target, which is to have one class.  The
classes of the puzzles worked on have one key each, whose share is the hashpower of
all workers on equivalent puzzles, and the shares add up to all there is.  Another
order of the workers leaves the classes and their shares, and a table that looks
puzzles up by any hash of their classes has these shares, each in the bucket of its
hash. -/
theorem ofWorkers_losesNothing
    (workers : List (Working Rat)) :
    (∀ left right : Puzzle,
        (left.equivalent right = true ↔
          ∃ target : Target, target.magnitude = left.target.magnitude ∧
            right = { left with target := target }) ∧
        (left.equivalent right = true ↔ left.toClass = right.toClass)) ∧
      Tallies (ofWorkers workers) workers ∧
      (∀ reordered, workers.Perm reordered →
        (byClass (ofWorkers workers)).Perm (byClass (ofWorkers reordered))) ∧
      ∀ {κ : Type} [DecidableEq κ] (hash : Puzzle.Class → κ) (code : κ),
        inBuckets (fun puzzle => hash puzzle.toClass) workers code =
          among (fun kind => hash kind = code) (ofWorkers workers) := by
  refine ⟨fun left right => ⟨Puzzle.equivalent_iff_exists_target,
    Puzzle.equivalent_iff_toClass_eq⟩, tallies_ofWorkers workers, fun reordered isPerm => ?_,
    fun hash code => inBuckets_toClass hash workers code⟩
  exact ((tallies_ofWorkers workers).of_perm isPerm).perm_byClass (tallies_ofWorkers reordered)

/-- A worker on a puzzle with nothing but a target. -/
def onTarget
    (number : Nat)
    (target : Target)
    (hashpower : Rat) :
    Working Rat :=
  ⟨⟨BitVec.ofNat 128 number⟩, { Puzzle.absent with target := target }, hashpower⟩

/-- Two encodings of one magnitude share a key, which is the one that comes first,
and the hashpower on them is one share in either order. -/
theorem ofWorkers_losesNothing_shared
    : ofWorkers [onTarget 1 .sharedUpper 1, onTarget 2 .sharedLower 2, onTarget 3 .half 4] =
        [({ Puzzle.absent with target := .sharedUpper }, 3),
          ({ Puzzle.absent with target := .half }, 4)] ∧
      ofWorkers [onTarget 2 .sharedLower 2, onTarget 1 .sharedUpper 1, onTarget 3 .half 4] =
        [({ Puzzle.absent with target := .sharedLower }, 3),
          ({ Puzzle.absent with target := .half }, 4)] ∧
      (byClass (ofWorkers
          [onTarget 1 .sharedUpper 1, onTarget 2 .sharedLower 2, onTarget 3 .half 4])).Perm
        (byClass (ofWorkers
          [onTarget 2 .sharedLower 2, onTarget 1 .sharedUpper 1, onTarget 3 .half 4])) := by
  refine ⟨by decide +kernel, by decide +kernel, ?_⟩
  exact (ofWorkers_losesNothing _).2.2.1 _ (List.Perm.swap _ _ _)

end Distribution
end WorkMarket
