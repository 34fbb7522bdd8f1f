import WorkMarket.Proofs.Market.RankHistory

/-!
# A ranking is the stable sort of what is queued

In exact arithmetic the entries of a ranking stand by descending rate, and those
of one rate in the order in which they were queued.  Such a list is determined
by its rates and by the order in each of them, so it is what a stable sort makes
of the queued entries; ranking, noting and removing all keep it so.
`run_represents` puts this together with what the history says of each name.
-/

namespace WorkMarket

/-- Entries by descending rate, those of one rate in the order in which they are
queued. -/
structure IsStableSortOf
    (entries queued : List (RankedBounty Rat)) : Prop where
  sorted : entries.Pairwise fun better worse => worse.rate ≤ better.rate
  classes : ∀ rate : Rat, entries.filter (fun entry => entry.rate = rate) =
    queued.filter fun entry => entry.rate = rate

namespace IsStableSortOf

variable {entries queued : List (RankedBounty Rat)}

/-- Sorted entries are determined by the order in each rate. -/
theorem eq_of_classes_eq
    {others : List (RankedBounty Rat)}
    (sorted : entries.Pairwise fun better worse => worse.rate ≤ better.rate)
    (otherSorted : others.Pairwise fun better worse => worse.rate ≤ better.rate)
    (classes : ∀ rate : Rat, entries.filter (fun entry => entry.rate = rate) =
      others.filter fun entry => entry.rate = rate) :
    entries = others := by
  have same (entry : RankedBounty Rat) : entry ∈ entries ↔ entry ∈ others := by
    have inClass := congrArg (entry ∈ ·) (classes entry.rate)
    simpa using inClass
  induction entries generalizing others with
  | nil => exact (List.eq_nil_iff_forall_not_mem.mpr fun entry => (same entry).not.mp (by simp)).symm
  | cons first rest inductionHypothesis =>
      cases others with
      | nil => exact absurd ((same first).mp List.mem_cons_self) List.not_mem_nil
      | cons otherFirst otherRest =>
          obtain ⟨best, restSorted⟩ := List.pairwise_cons.mp sorted
          obtain ⟨otherBest, otherRestSorted⟩ := List.pairwise_cons.mp otherSorted
          have le : first.rate ≤ otherFirst.rate := by
            rcases List.mem_cons.mp ((same first).mp List.mem_cons_self) with rfl | inRest
            · exact le_rfl
            · exact otherBest first inRest
          have ge : otherFirst.rate ≤ first.rate := by
            rcases List.mem_cons.mp ((same otherFirst).mpr List.mem_cons_self) with rfl | inRest
            · exact le_rfl
            · exact best otherFirst inRest
          have heads := classes first.rate
          rw [List.filter_cons_of_pos (by simp),
            List.filter_cons_of_pos (by simpa using ge.antisymm le)] at heads
          obtain rfl := (List.cons.inj heads).1
          have restClasses (rate : Rat) : rest.filter (fun entry => entry.rate = rate) =
              otherRest.filter fun entry => entry.rate = rate := by
            have whole := classes rate
            by_cases here : first.rate = rate
            · rw [List.filter_cons_of_pos (by simpa using here),
                List.filter_cons_of_pos (by simpa using here)] at whole
              exact (List.cons.inj whole).2
            · rwa [List.filter_cons_of_neg (by simpa using here),
                List.filter_cons_of_neg (by simpa using here)] at whole
          rw [inductionHypothesis restSorted otherRestSorted restClasses fun entry => by
            have inClass := congrArg (entry ∈ ·) (restClasses entry.rate)
            simpa using inClass]

/-- A merge sort keeps the order in each rate. -/
theorem mergeSort
    (queued : List (RankedBounty Rat)) :
    IsStableSortOf (queued.mergeSort fun better worse => worse.rate ≤ better.rate) queued := by
  have trans : ∀ first second third : RankedBounty Rat,
      decide (second.rate ≤ first.rate) = true → decide (third.rate ≤ second.rate) = true →
        decide (third.rate ≤ first.rate) = true := by
    simp only [decide_eq_true_eq]
    exact fun _ _ _ upper lower => lower.trans upper
  have total : ∀ first second : RankedBounty Rat,
      (decide (second.rate ≤ first.rate) || decide (first.rate ≤ second.rate)) = true := by
    intro first second
    simpa using le_total second.rate first.rate
  constructor
  · simpa using List.pairwise_mergeSort trans total queued
  · intro rate
    let ofRate := queued.filter fun entry => entry.rate = rate
    have equal : ofRate.Pairwise fun better worse => decide (worse.rate ≤ better.rate) = true := by
      apply List.pairwise_of_forall_mem_list
      intro better inClass worse alsoInClass
      have betterRate : better.rate = rate := by simpa using (List.mem_filter.mp inClass).2
      have worseRate : worse.rate = rate := by simpa using (List.mem_filter.mp alsoInClass).2
      simp [betterRate, worseRate]
    have kept : ofRate.Sublist (queued.mergeSort fun better worse => worse.rate ≤ better.rate) :=
      List.sublist_mergeSort trans total equal List.filter_sublist
    have inClass := kept.filter fun entry => decide (entry.rate = rate)
    rw [List.filter_filter] at inClass
    simp only [Bool.and_self] at inClass
    exact (inClass.eq_of_length
      ((List.mergeSort_perm queued _).filter _).length_eq.symm).symm

/-- So it is what a merge sort makes of the queued entries. -/
theorem eq_mergeSort
    (stable : IsStableSortOf entries queued) :
    entries = queued.mergeSort fun better worse => worse.rate ≤ better.rate :=
  eq_of_classes_eq stable.sorted (mergeSort queued).sorted fun rate =>
    (stable.classes rate).trans ((mergeSort queued).classes rate).symm

/-- An entry goes behind all of its rate, wherever that is. -/
theorem insertRanked
    (stable : IsStableSortOf entries queued)
    (entry : RankedBounty Rat) :
    IsStableSortOf (Ranking.insertRanked entry entries) (queued ++ [entry]) := by
  refine ⟨Ranking.pairwise_insertRanked entry stable.sorted, fun rate => ?_⟩
  have parts : entries.filter (fun other => other.rate = rate) =
      (entries.takeWhile fun other => entry.rate ≤ other.rate).filter
          (fun other => other.rate = rate) ++
        (entries.dropWhile fun other => entry.rate ≤ other.rate).filter
          fun other => other.rate = rate := by
    rw [← List.filter_append, List.takeWhile_append_dropWhile]
  rw [List.filter_append, ← stable.classes rate, Ranking.insertRanked_eq stable.sorted,
    List.filter_append, parts]
  by_cases here : entry.rate = rate
  · -- Nothing behind the entry has its rate.
    have none : (entries.dropWhile fun other => entry.rate ≤ other.rate).filter
        (fun other => other.rate = rate) = [] := by
      rw [List.filter_eq_nil_iff]
      intro other behind
      simpa [← here] using (Ranking.rate_lt_of_mem_dropWhile stable.sorted behind).ne
    rw [List.filter_cons_of_pos (by simpa using here), none, List.append_nil,
      List.filter_cons_of_pos (by simpa using here), List.filter_nil]
  · rw [List.filter_cons_of_neg (by simpa using here),
      List.filter_cons_of_neg (by simpa using here), List.filter_nil, List.append_nil]

/-- Leaving entries out keeps the order of the others. -/
theorem filter
    (stable : IsStableSortOf entries queued)
    (accepts : RankedBounty Rat → Bool) :
    IsStableSortOf (entries.filter accepts) (queued.filter accepts) where
  sorted := stable.sorted.filter accepts
  classes := by
    intro rate
    rw [List.filter_comm, stable.classes rate, List.filter_comm]

end IsStableSortOf

namespace Ranking

section Queued

variable {α : Type} {ranking next : Ranking α} {history : List Operation}

/-- The entries in the order in which they were queued. -/
def queued
    (ranking : Ranking α)
    (history : List Operation) :
    List (RankedBounty α) :=
  (order history).filterMap ranking.get?

/-- Noting an output leaves what is queued. -/
theorem queued_addOutput
    (output : Output)
    {operation : Operation}
    (enrolled : order (history ++ [operation]) = order history) :
    (ranking.addOutput output).2.queued (history ++ [operation]) = ranking.queued history := by
  unfold queued
  rw [enrolled]
  exact List.filterMap_congr fun id _ => get?_addOutput ranking output id

variable [Scalar α]

/-- A new entry is queued behind all others. -/
theorem queued_of_enters
    (mirrors : ranking.Mirrors history)
    {operation : Operation}
    {entry : RankedBounty α}
    {outpoint : Outpoint}
    (enters : ranking.Enters next entry outpoint)
    (enrolled : order (history ++ [operation]) = order history ++ [entry.id]) :
    next.queued (history ++ [operation]) = ranking.queued history ++ [entry] := by
  have lookup := enters.get?_eq mirrors.agrees
  unfold queued
  rw [enrolled, List.filterMap_append]
  congr 1
  · apply List.filterMap_congr
    intro id present
    rw [lookup, if_neg]
    rintro rfl
    rw [mirrors.enrolled, enters.unranked] at present
    contradiction
  · simp [lookup]

/-- Taking a name away leaves the others queued. -/
theorem queued_remove
    (mirrors : ranking.Mirrors history)
    (id : Digest) :
    (ranking.remove id).2.queued (history ++ [.remove id]) =
      (ranking.queued history).filter fun entry => entry.id ≠ id := by
  unfold queued
  rw [order_concat]
  change ((order history).filter (· ≠ id)).filterMap _ = _
  rw [List.filterMap_filter, List.filter_filterMap]
  apply List.filterMap_congr
  intro other _
  rw [mirrors.agrees.get?_remove]
  cases found : ranking.get? other with
  | none => simp
  | some entry =>
      have named := id_of_get? found
      subst named
      by_cases same : entry.id = id
      · simp [same, Option.filter]
      · simp [same, Ne.symm same, Option.filter]

end Queued

section Stability

variable {ranking : Ranking Rat} {history : List Operation}

/-- One operation more keeps the entries a stable sort of what is queued. -/
theorem isStableSortOf_step
    (mirrors : ranking.Mirrors history)
    (stable : IsStableSortOf ranking.entries (ranking.queued history))
    (operation : Operation) :
    IsStableSortOf (ranking.step operation).entries
      ((ranking.step operation).queued (history ++ [operation])) := by
  cases mirrors.change operation with
  | kept same _ enrolled =>
      rw [same, queued, enrolled]
      exact stable
  | noted output _ noted _ enrolled =>
      rw [noted, queued_addOutput output enrolled, entries_addOutput]
      exact stable
  | ranked output difficulty _ enters _ enrolled =>
      rw [queued_of_enters mirrors enters enrolled, enters.entries_eq]
      exact stable.insertRanked _
  | removed id isRemoval =>
      subst isRemoval
      change IsStableSortOf (ranking.remove id).2.entries ((ranking.remove id).2.queued _)
      rw [queued_remove mirrors, mirrors.agrees.entries_remove]
      exact stable.filter _

theorem isStableSortOf_run
    (history : List Operation) :
    IsStableSortOf ((empty : Ranking Rat).run history).entries
      (((empty : Ranking Rat).run history).queued history) := by
  induction history using List.reverseRecOn with
  | nil => exact ⟨List.Pairwise.nil, fun _ => rfl⟩
  | append_singleton history operation inductionHypothesis =>
      rw [run_concat]
      exact isStableSortOf_step (run_mirrors history) inductionHypothesis operation

/-- What is read off a ranking is what its history says.  The names in the list
are distinct and are the keys of the map, which records for each of them every
arrival since the name was ranked, once and in order.  The figures of an entry are
those of the first arrival.  The entries are the stable sort of what is queued,
and bisection finds behind which of them a new entry belongs.  A name that is
taken away takes its entry and its outputs along and nothing else. -/
structure Represents
    (ranking : Ranking Rat)
    (history : List Operation) : Prop where
  distinct : ranking.ids.Nodup
  keys_perm : ranking.recorded.keys.Perm ranking.ids
  contains_iff : ∀ id, ranking.contains id = true ↔ id ∈ ranking.ids
  ranked_iff : ∀ id, id ∈ ranking.ids ↔ arrivals history id ≠ []
  recorded_iff : ∀ id outpoints, ranking.recorded.get? id = some outpoints ↔
    id ∈ ranking.ids ∧ outpoints = ((arrivals history id).map Output.outpoint).eraseDups
  outpoints_eq : ∀ id,
    ranking.outpoints id = ((arrivals history id).map Output.outpoint).eraseDups
  outpoints_ne_nil_iff : ∀ id, ranking.outpoints id ≠ [] ↔ id ∈ ranking.ids
  outpoints_nodup : ∀ id, (ranking.outpoints id).Nodup
  figures : ∀ entry ∈ ranking.entries, ∃ first later difficulty,
    arrivals history entry.id = first :: later ∧
      first.script.difficulty = .ok difficulty ∧
      entry.script = first.script ∧ entry.bounty = first.value ∧
      entry.difficulty = difficulty.toRat ∧
      entry.rate = (first.value.toNat : Rat) / difficulty.toRat
  sorted : ranking.entries.Pairwise fun better worse => worse.rate ≤ better.rate
  order_perm : (order history).Perm ranking.ids
  stable : ranking.entries = ((order history).filterMap ranking.get?).mergeSort
    fun better worse => worse.rate ≤ better.rate
  placed : ∀ entry : RankedBounty Rat,
    partitionPoint (fun other => entry.rate ≤ other.rate) ranking.entries =
      (ranking.entries.takeWhile fun other => entry.rate ≤ other.rate).length
  removed : ∀ id, (ranking.remove id).1 = ranking.outpoints id ∧
    ((ranking.remove id).2.entries = ranking.entries.filter fun entry => entry.id ≠ id) ∧
    ∀ other, (ranking.remove id).2.recorded.get? other =
      if id = other then none else ranking.recorded.get? other

theorem mem_ids_iff
    (agrees : ranking.Agrees)
    (id : Digest) :
    id ∈ ranking.ids ↔ ranking.contains id = true := by
  rw [agrees.contains_iff]
  exact List.mem_map

/-- The keys of the map are the names in the list. -/
theorem keys_perm_ids
    (agrees : ranking.Agrees) :
    ranking.recorded.keys.Perm ranking.ids := by
  rw [List.perm_ext_iff_of_nodup agrees.keys_nodup agrees.distinct]
  intro id
  rw [Keyed.mem_keys_iff, mem_ids_iff agrees]
  rfl

theorem outpoints_eq_of_mirrors
    (mirrors : ranking.Mirrors history)
    (id : Digest) :
    ranking.outpoints id = ((arrivals history id).map Output.outpoint).eraseDups := by
  rw [outpoints, mirrors.recorded_get?, getD_recordOf?]

/-- What is recorded for a name that has arrivals is what arrived. -/
theorem recorded_iff_of_mirrors
    (mirrors : ranking.Mirrors history)
    (id : Digest)
    (outpoints : List Outpoint) :
    ranking.recorded.get? id = some outpoints ↔
      id ∈ ranking.ids ∧ outpoints = ((arrivals history id).map Output.outpoint).eraseDups := by
  rw [mem_ids_iff mirrors.agrees, mirrors.contains_iff, mirrors.recorded_get?]
  cases arrivals history id <;> simp [recordOf?, eq_comm]

/-- The figures of a ranked entry are those of the first arrival. -/
theorem figures_of_mirrors
    (mirrors : ranking.Mirrors history)
    {entry : RankedBounty Rat}
    (present : entry ∈ ranking.entries) :
    ∃ first later difficulty, arrivals history entry.id = first :: later ∧
      first.script.difficulty = .ok difficulty ∧
      entry.script = first.script ∧ entry.bounty = first.value ∧
      entry.difficulty = difficulty.toRat ∧
      entry.rate = (first.value.toNat : Rat) / difficulty.toRat := by
  have found := (get?_eq_some_iff mirrors.agrees.distinct entry.id entry).mpr ⟨present, rfl⟩
  rw [mirrors.get?_eq] at found
  rcases arrivals_cases history entry.id with
    ⟨_, none⟩ | ⟨_, first, later, difficulty, some, _, isDifficulty⟩
  · rw [none] at found
    contradiction
  · rw [some, entryOf?, isDifficulty] at found
    refine ⟨first, later, difficulty, some, isDifficulty, ?_⟩
    rw [← Option.some.inj found]
    exact ⟨rfl, rfl, rfl, rfl⟩

/-- Whatever happened to an empty ranking, it represents its history. -/
theorem run_represents
    (history : List Operation) :
    ((empty : Ranking Rat).run history).Represents history := by
  have mirrors := run_mirrors (α := Rat) history
  have agrees := mirrors.agrees
  have stable := isStableSortOf_run history
  have recorded := outpoints_eq_of_mirrors mirrors
  have named := mem_ids_iff agrees
  refine
    { distinct := agrees.distinct
      keys_perm := keys_perm_ids agrees
      contains_iff := fun id => (named id).symm
      ranked_iff := fun id => (named id).trans (mirrors.contains_iff id)
      recorded_iff := recorded_iff_of_mirrors mirrors
      outpoints_eq := recorded
      outpoints_ne_nil_iff := fun id => ?_
      outpoints_nodup := fun id => ?_
      figures := fun entry present => figures_of_mirrors mirrors present
      sorted := stable.sorted
      order_perm := ?_
      stable := stable.eq_mergeSort
      placed := partitionPoint_rate stable.sorted
      removed := fun id => ⟨fst_remove _ id, agrees.entries_remove id, recorded_get?_remove _ id⟩ }
  · rw [recorded, named, mirrors.contains_iff]
    simp [List.eq_nil_iff_forall_not_mem, List.mem_eraseDups]
  · rw [recorded]
    exact nodup_eraseDups _
  · rw [List.perm_ext_iff_of_nodup mirrors.order_nodup agrees.distinct]
    exact fun id => (mirrors.enrolled id).trans (named id).symm

end Stability

end Ranking
end WorkMarket
