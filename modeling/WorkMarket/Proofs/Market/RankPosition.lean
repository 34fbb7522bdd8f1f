import Mathlib.Algebra.Order.Ring.Rat
import Mathlib.Data.List.InsertIdx
import Mathlib.Data.List.TakeWhile
import WorkMarket.Market.Ranking

/-!
# Where a new entry is ranked

The place of a new entry is found by bisection, which only makes sense of a list
whose leading values are those that a predicate accepts.  In such a list it finds
the first value that is refused (`partitionPoint_eq`).  Entries that stand by
descending rate are such a list for every new entry, so the entry goes behind all
that pay at least as well and in front of all others (`insertRanked_eq`).
-/

namespace WorkMarket
namespace Ranking

section Bisection

variable {β : Type} {accepts : β → Bool} {values : List β}

/-- Bisection stays between its bounds. -/
theorem bisect_bounds
    {low high : Nat}
    (ordered : low ≤ high) :
    low ≤ bisect accepts values low high ∧ bisect accepts values low high ≤ high := by
  fun_induction bisect accepts values low high with
  | case1 low high nonempty middle accepted inductionHypothesis =>
      have inside : middle < high := by omega
      obtain ⟨above, below⟩ := inductionHypothesis inside
      exact ⟨by omega, below⟩
  | case2 low high nonempty middle refused inductionHypothesis =>
      have inside : middle < high := by omega
      obtain ⟨above, below⟩ := inductionHypothesis (by omega)
      exact ⟨above, by omega⟩
  | case3 low high empty => exact ⟨le_rfl, ordered⟩

theorem partitionPoint_le_length
    (accepts : β → Bool)
    (values : List β) :
    partitionPoint accepts values ≤ values.length :=
  (bisect_bounds (Nat.zero_le _)).2

/-- Bisection finds the bound of what is accepted, if that lies between its own
bounds. -/
theorem bisect_eq
    {bound low high : Nat}
    (accepted_iff : ∀ position, values[position]?.any accepts = true ↔ position < bound)
    (above : low ≤ bound)
    (below : bound ≤ high) :
    bisect accepts values low high = bound := by
  fun_induction bisect accepts values low high with
  | case1 low high nonempty middle accepted inductionHypothesis =>
      exact inductionHypothesis ((accepted_iff middle).mp accepted) below
  | case2 low high nonempty middle refused inductionHypothesis =>
      exact inductionHypothesis above (not_lt.mp ((accepted_iff middle).not.mp refused))
  | case3 low high empty => omega

/-- What satisfies a predicate is a leading run and what is left of it behind
the first exception. -/
theorem filter_eq_takeWhile_append
    (accepts : β → Bool)
    (values : List β) :
    values.filter accepts =
      values.takeWhile accepts ++ (values.dropWhile accepts).filter accepts := by
  conv_lhs => rw [← List.takeWhile_append_dropWhile (p := accepts) (l := values)]
  rw [List.filter_append, List.filter_eq_self.mpr]
  intro value present
  exact List.mem_takeWhile_imp present

/-- Nothing behind the first exception satisfies a predicate exactly if none that
does stands behind one that does not. -/
theorem filter_dropWhile_eq_nil_iff
    (accepts : β → Bool)
    (values : List β) :
    (values.dropWhile accepts).filter accepts = [] ↔
      values.Pairwise fun before behind => accepts behind = true → accepts before = true := by
  induction values with
  | nil => simp
  | cons value rest inductionHypothesis =>
      rw [List.pairwise_cons]
      by_cases accepted : accepts value = true
      · rw [List.dropWhile_cons_of_pos accepted, inductionHypothesis]
        simp [accepted]
      · rw [List.dropWhile_cons_of_neg accepted, List.filter_cons_of_neg accepted,
          List.filter_eq_nil_iff]
        constructor
        · intro none
          refine ⟨fun behind present accepts => absurd accepts (none behind present), ?_⟩
          exact List.pairwise_of_forall_mem_list fun before _ behind present accepts =>
            absurd accepts (none behind present)
        · rintro ⟨aligned, _⟩ behind present accepts
          exact accepted (aligned behind present accepts)

/-- Where what is accepted comes first, a place is accepted if it is one of as many
as there are. -/
theorem any_getElem?_iff
    (aligned : values.Pairwise fun before behind => accepts behind = true → accepts before = true)
    (position : Nat) :
    values[position]?.any accepts = true ↔ position < (values.takeWhile accepts).length := by
  induction values generalizing position with
  | nil => simp
  | cons value rest inductionHypothesis =>
      obtain ⟨first, others⟩ := List.pairwise_cons.mp aligned
      by_cases accepted : accepts value = true
      · rw [List.takeWhile_cons_of_pos accepted]
        cases position with
        | zero => simp [accepted]
        | succ position => simpa using inductionHypothesis others position
      · -- Nothing is accepted behind a value that is not.
        rw [List.takeWhile_cons_of_neg accepted]
        cases position with
        | zero => simpa using accepted
        | succ position =>
            have refused : ∀ behind ∈ rest, accepts behind ≠ true := fun behind present accepts =>
              accepted (first behind present accepts)
            cases found : rest[position]? with
            | none => simp [found]
            | some behind => simpa [found] using refused behind (List.mem_of_getElem? found)

/-- Where what is accepted comes first, bisection counts it. -/
theorem partitionPoint_eq
    (aligned : values.Pairwise fun before behind => accepts behind = true → accepts before = true) :
    partitionPoint accepts values = (values.takeWhile accepts).length :=
  bisect_eq (any_getElem?_iff aligned) (Nat.zero_le _) (List.takeWhile_sublist _).length_le

end Bisection

/-- What is inserted behind a front comes between it and the back. -/
theorem insertIdx_length_append
    {β : Type}
    (front back : List β)
    (value : β) :
    (front ++ back).insertIdx front.length value = front ++ value :: back := by
  induction front with
  | nil => rfl
  | cons first rest inductionHypothesis => simp [inductionHypothesis]

/-- Ranking an entry only decides its place. -/
theorem insertRanked_perm
    {α : Type}
    [Scalar α]
    (entry : RankedBounty α)
    (entries : List (RankedBounty α)) :
    (insertRanked entry entries).Perm (entry :: entries) :=
  List.perm_insertIdx entry entries (partitionPoint_le_length _ entries)

section Sorted

variable {entries : List (RankedBounty Rat)}

/-- In a ranking, what pays at least as well as an entry comes first. -/
theorem pairwise_accepts
    (sorted : entries.Pairwise fun better worse => worse.rate ≤ better.rate)
    (entry : RankedBounty Rat) :
    entries.Pairwise fun before behind => decide (entry.rate ≤ behind.rate) = true →
      decide (entry.rate ≤ before.rate) = true :=
  sorted.imp fun ordered accepted =>
    decide_eq_true ((of_decide_eq_true accepted).trans ordered)

/-- Bisection finds how many entries pay at least as well as a new one. -/
theorem partitionPoint_rate
    (sorted : entries.Pairwise fun better worse => worse.rate ≤ better.rate)
    (entry : RankedBounty Rat) :
    partitionPoint (fun other => entry.rate ≤ other.rate) entries =
      (entries.takeWhile fun other => entry.rate ≤ other.rate).length :=
  partitionPoint_eq (pairwise_accepts sorted entry)

/-- An entry goes behind all that pay at least as well and in front of all
others. -/
theorem insertRanked_eq
    (sorted : entries.Pairwise fun better worse => worse.rate ≤ better.rate)
    (entry : RankedBounty Rat) :
    insertRanked entry entries =
      (entries.takeWhile fun other => entry.rate ≤ other.rate) ++
        entry :: entries.dropWhile fun other => entry.rate ≤ other.rate := by
  have placed := insertIdx_length_append (entries.takeWhile fun other => entry.rate ≤ other.rate)
    (entries.dropWhile fun other => entry.rate ≤ other.rate) entry
  rw [List.takeWhile_append_dropWhile] at placed
  rw [insertRanked, partitionPoint_rate sorted, placed]

theorem rate_le_of_mem_takeWhile
    {entry other : RankedBounty Rat}
    (ahead : other ∈ entries.takeWhile fun other => entry.rate ≤ other.rate) :
    entry.rate ≤ other.rate := by
  simpa using List.mem_takeWhile_imp ahead

theorem rate_lt_of_mem_dropWhile
    (sorted : entries.Pairwise fun better worse => worse.rate ≤ better.rate)
    {entry other : RankedBounty Rat}
    (behind : other ∈ entries.dropWhile fun other => entry.rate ≤ other.rate) :
    other.rate < entry.rate := by
  have none := (filter_dropWhile_eq_nil_iff _ _).mpr (pairwise_accepts sorted entry)
  simpa using List.filter_eq_nil_iff.mp none other behind

/-- So what is sorted stays sorted. -/
theorem pairwise_insertRanked
    (entry : RankedBounty Rat)
    (sorted : entries.Pairwise fun better worse => worse.rate ≤ better.rate) :
    (insertRanked entry entries).Pairwise fun better worse => worse.rate ≤ better.rate := by
  rw [insertRanked_eq sorted, List.pairwise_append, List.pairwise_cons]
  refine ⟨sorted.sublist (List.takeWhile_sublist _),
    ⟨fun behind isBehind => (rate_lt_of_mem_dropWhile sorted isBehind).le,
      sorted.sublist (List.dropWhile_sublist _)⟩, ?_⟩
  intro before isAhead other present
  have ahead := rate_le_of_mem_takeWhile isAhead
  rcases List.mem_cons.mp present with rfl | isBehind
  · exact ahead
  · exact (rate_lt_of_mem_dropWhile sorted isBehind).le.trans ahead

end Sorted

end Ranking
end WorkMarket
