import WorkMarket.Proofs.Market.KeyedEntries
import WorkMarket.Proofs.Market.RankPosition
import WorkMarket.Proofs.Pow.ExactDifficulty

/-!
# What is ranked under a name

A ranking keeps names twice: in the list of its entries and in the map of their
outputs.  The two rank the same names, and each name once.  Under this invariant
each operation on a ranking is determined by what it does to the entry and to
the outputs of each name, wherever the entry stands.
-/

namespace WorkMarket

namespace Ranking

variable {α : Type} {ranking : Ranking α}

/-- The list and the map rank the same names, each of them once. -/
structure Agrees (ranking : Ranking α) : Prop where
  distinct : ranking.ids.Nodup
  keys_nodup : ranking.recorded.keys.Nodup
  contains_eq : ∀ id, ranking.contains id = (ranking.get? id).isSome

/-- The entry of a name is the only one. -/
theorem get?_eq_some_iff
    (distinct : ranking.ids.Nodup)
    (id : Digest)
    (entry : RankedBounty α) :
    ranking.get? id = some entry ↔ entry ∈ ranking.entries ∧ entry.id = id :=
  Keyed.find?_eq_some_iff_of_nodup distinct id entry

theorem id_of_get?
    {id : Digest}
    {entry : RankedBounty α}
    (found : ranking.get? id = some entry) :
    entry.id = id := by
  simpa using List.find?_some found

theorem contains_eq_isSome
    (ranking : Ranking α)
    (id : Digest) :
    ranking.contains id = (ranking.recorded.get? id).isSome :=
  rfl

namespace Agrees

/-- A name has outputs recorded exactly if an entry carries it. -/
theorem contains_iff
    (agrees : ranking.Agrees)
    (id : Digest) :
    ranking.contains id = true ↔ ∃ entry ∈ ranking.entries, entry.id = id := by
  simp [agrees.contains_eq, get?, List.find?_isSome]

/-- Every entry has outputs recorded. -/
theorem contains_of_mem
    (agrees : ranking.Agrees)
    {entry : RankedBounty α}
    (present : entry ∈ ranking.entries) :
    ranking.contains entry.id = true :=
  (agrees.contains_iff entry.id).mpr ⟨entry, present, rfl⟩

theorem get?_eq_none_iff
    (agrees : ranking.Agrees)
    (id : Digest) :
    ranking.get? id = none ↔ ranking.recorded.get? id = none := by
  rw [← Option.not_isSome_iff_eq_none, ← agrees.contains_eq, contains_eq_isSome,
    Option.not_isSome_iff_eq_none]

end Agrees

/-- The answer to noting an output is whether its name is ranked. -/
theorem fst_addOutput
    (ranking : Ranking α)
    (output : Output) :
    (ranking.addOutput output).1 = ranking.contains output.id := by
  rw [contains_eq_isSome, addOutput]
  cases ranking.recorded.get? output.id <;> rfl

/-- An output of a name that is not ranked is not noted. -/
theorem addOutput_of_unranked
    {output : Output}
    (unranked : ranking.contains output.id = false) :
    ranking.addOutput output = (false, ranking) := by
  rw [contains_eq_isSome, Option.isSome_eq_false_iff, Option.isNone_iff_eq_none] at unranked
  rw [addOutput, unranked]

/-- Noting an output leaves the entries as they are. -/
@[simp] theorem entries_addOutput
    (ranking : Ranking α)
    (output : Output) :
    (ranking.addOutput output).2.entries = ranking.entries := by
  unfold addOutput
  split <;> rfl

@[simp] theorem get?_addOutput
    (ranking : Ranking α)
    (output : Output)
    (id : Digest) :
    (ranking.addOutput output).2.get? id = ranking.get? id := by
  simp [get?]

@[simp] theorem ids_addOutput
    (ranking : Ranking α)
    (output : Output) :
    (ranking.addOutput output).2.ids = ranking.ids := by
  simp [ids]

/-- Noting an output concerns the outputs of its name. -/
theorem recorded_get?_addOutput
    (ranking : Ranking α)
    (output : Output)
    (id : Digest) :
    (ranking.addOutput output).2.recorded.get? id =
      (ranking.recorded.get? id).map fun outpoints =>
        if id = output.id then withOutpoint outpoints output.outpoint else outpoints := by
  unfold addOutput
  cases found : ranking.recorded.get? output.id with
  | none =>
      by_cases named : id = output.id
      · simp [named, found]
      · simp [named]
  | some outpoints =>
      dsimp only
      rw [Keyed.get?_put]
      by_cases named : id = output.id
      · subst named
        simp [found]
      · simp [named, Ne.symm named]

@[simp] theorem contains_addOutput
    (ranking : Ranking α)
    (output : Output)
    (id : Digest) :
    (ranking.addOutput output).2.contains id = ranking.contains id := by
  rw [contains_eq_isSome, recorded_get?_addOutput, Option.isSome_map, contains_eq_isSome]

theorem outpoints_addOutput
    (ranking : Ranking α)
    (output : Output)
    (id : Digest) :
    (ranking.addOutput output).2.outpoints id =
      if ranking.contains id ∧ id = output.id then
        withOutpoint (ranking.outpoints id) output.outpoint
      else ranking.outpoints id := by
  rw [outpoints, recorded_get?_addOutput, contains_eq_isSome, outpoints]
  cases ranking.recorded.get? id <;> simp

theorem mem_withOutpoint
    {outpoints : List Outpoint}
    {noted outpoint : Outpoint} :
    outpoint ∈ withOutpoint outpoints noted ↔ outpoint ∈ outpoints ∨ outpoint = noted := by
  unfold withOutpoint
  split
  · rename_i known
    have present : noted ∈ outpoints := by simpa using known
    exact ⟨Or.inl, fun listed => listed.elim id fun same => same ▸ present⟩
  · simp

theorem Agrees.addOutput
    (agrees : ranking.Agrees)
    (output : Output) :
    (ranking.addOutput output).2.Agrees where
  distinct := by simpa using agrees.distinct
  keys_nodup := by
    unfold Ranking.addOutput
    split
    · exact agrees.keys_nodup
    · exact Keyed.nodup_keys_put agrees.keys_nodup _ _
  contains_eq := by simpa using agrees.contains_eq

variable [Scalar α]

/-- What a ranking becomes when an entry is ranked that was not: the entry takes
its place, its first output is recorded, and its difficulty counts. -/
structure Enters
    (ranking next : Ranking α)
    (entry : RankedBounty α)
    (outpoint : Outpoint) : Prop where
  unranked : ranking.contains entry.id = false
  entries_eq : next.entries = insertRanked entry ranking.entries
  recorded_eq : next.recorded = ranking.recorded.put entry.id [outpoint]
  difficulty_eq : next.difficulty = ranking.difficulty + entry.difficulty

/-- Everything that pushing an output can do: what is no bounty is ignored, an
output of a ranked name is noted, and of the others one with a valid target is
ranked. -/
theorem push_cases
    (ranking : Ranking α)
    (output : Output) :
    (output.script.kind ≠ .bounty ∧ ranking.push output = ranking) ∨
      (output.script.kind = .bounty ∧ ranking.contains output.id = true ∧
        ranking.push output = (ranking.addOutput output).2) ∨
      (output.script.kind = .bounty ∧ ranking.contains output.id = false ∧
        output.script.target.isValid = false ∧ ranking.push output = ranking) ∨
      (output.script.kind = .bounty ∧
        ∃ difficulty, output.script.difficulty = .ok difficulty ∧
          ranking.Enters (ranking.push output) (RankedBounty.ofOutput output difficulty)
            output.outpoint) := by
  unfold push
  by_cases bounty : output.script.kind = .bounty
  · right
    rw [if_pos bounty]
    cases known : ranking.contains output.id with
    | true =>
        have added : (ranking.addOutput output).1 = true := (ranking.fst_addOutput output).trans known
        exact Or.inl ⟨bounty, rfl, by rw [← Prod.eta (ranking.addOutput output), added]⟩
    | false =>
        right
        rw [addOutput_of_unranked known]
        cases found : output.script.difficulty with
        | error failure =>
            refine Or.inl ⟨bounty, rfl, ?_, rfl⟩
            rw [Bool.eq_false_iff]
            intro valid
            rw [LockingScript.difficulty,
              (Target.difficulty_eq_ok_iff _ _).mpr ⟨valid, rfl⟩] at found
            contradiction
        | ok difficulty => exact Or.inr ⟨bounty, difficulty, rfl, known, rfl, rfl, rfl⟩
  · exact Or.inl ⟨bounty, if_neg bounty⟩

/-- What holds of a ranking, and still does once the output is noted or entered,
holds after a push. -/
theorem push_keeps
    {motive : Ranking α → Prop}
    (output : Output)
    (before : motive ranking)
    (noted : motive (ranking.addOutput output).2)
    (entered : ∀ difficulty, output.script.kind = .bounty →
      output.script.difficulty = .ok difficulty →
      ranking.Enters (ranking.push output) (RankedBounty.ofOutput output difficulty)
        output.outpoint →
      motive (ranking.push output)) :
    motive (ranking.push output) := by
  rcases ranking.push_cases output with
    ⟨_, same⟩ | ⟨_, _, isNoted⟩ | ⟨_, _, _, same⟩ | ⟨bounty, difficulty, found, enters⟩
  · rwa [same]
  · rwa [isNoted]
  · rwa [same]
  · exact entered difficulty bounty found enters

/-- An output that is not ranked yet is ranked as a new entry or ignored. -/
theorem push_of_unranked
    (output : Output)
    (unranked : ranking.contains output.id = false) :
    ranking.push output = ranking ∨
      ∃ difficulty, output.script.kind = .bounty ∧ output.script.difficulty = .ok difficulty ∧
        ranking.Enters (ranking.push output) (RankedBounty.ofOutput output difficulty)
          output.outpoint := by
  rcases ranking.push_cases output with
    ⟨_, same⟩ | ⟨_, known, _⟩ | ⟨_, _, _, same⟩ | ⟨bounty, difficulty, found, enters⟩
  · exact Or.inl same
  · rw [known] at unranked
    contradiction
  · exact Or.inl same
  · exact Or.inr ⟨difficulty, bounty, found, enters⟩

namespace Enters

variable {next : Ranking α} {entry : RankedBounty α} {outpoint : Outpoint}

theorem perm_entries
    (enters : ranking.Enters next entry outpoint) :
    next.entries.Perm (entry :: ranking.entries) := by
  rw [enters.entries_eq]
  exact insertRanked_perm entry ranking.entries

theorem mem_entries_iff
    (enters : ranking.Enters next entry outpoint)
    (other : RankedBounty α) :
    other ∈ next.entries ↔ other = entry ∨ other ∈ ranking.entries := by
  rw [enters.perm_entries.mem_iff, List.mem_cons]

/-- The entries that were ranked have other names. -/
theorem ne_of_mem
    (enters : ranking.Enters next entry outpoint)
    (agrees : ranking.Agrees)
    {other : RankedBounty α}
    (present : other ∈ ranking.entries) :
    entry.id ≠ other.id := by
  intro same
  have ranked := agrees.contains_of_mem present
  rw [← same, enters.unranked] at ranked
  contradiction

/-- A new name keeps the names distinct. -/
theorem nodup_ids
    (enters : ranking.Enters next entry outpoint)
    (agrees : ranking.Agrees) :
    next.ids.Nodup := by
  have names : next.ids.Perm (entry.id :: ranking.ids) := enters.perm_entries.map RankedBounty.id
  refine names.nodup_iff.mpr (List.nodup_cons.mpr ⟨?_, agrees.distinct⟩)
  intro present
  obtain ⟨other, inRanking, same⟩ := List.mem_map.mp present
  exact enters.ne_of_mem agrees inRanking same.symm

/-- Ranking a new entry concerns its name. -/
theorem get?_eq
    (enters : ranking.Enters next entry outpoint)
    (agrees : ranking.Agrees)
    (id : Digest) :
    next.get? id = if entry.id = id then some entry else ranking.get? id := by
  ext found
  rw [get?_eq_some_iff (enters.nodup_ids agrees), enters.mem_entries_iff]
  split
  · rename_i same
    subst same
    constructor
    · rintro ⟨rfl | present, named⟩
      · rfl
      · exact absurd named.symm (enters.ne_of_mem agrees present)
    · rintro ⟨⟩
      exact ⟨Or.inl rfl, rfl⟩
  · rename_i other
    rw [get?_eq_some_iff agrees.distinct]
    constructor
    · rintro ⟨rfl | present, named⟩
      · exact absurd named other
      · exact ⟨present, named⟩
    · rintro ⟨present, named⟩
      exact ⟨Or.inr present, named⟩

theorem recorded_get?
    (enters : ranking.Enters next entry outpoint)
    (id : Digest) :
    next.recorded.get? id =
      if entry.id = id then some [outpoint] else ranking.recorded.get? id := by
  rw [enters.recorded_eq, Keyed.get?_put]

theorem outpoints_eq
    (enters : ranking.Enters next entry outpoint)
    (id : Digest) :
    next.outpoints id = if entry.id = id then [outpoint] else ranking.outpoints id := by
  rw [outpoints, enters.recorded_get?]
  split <;> rfl

theorem contains_eq
    (enters : ranking.Enters next entry outpoint)
    (id : Digest) :
    next.contains id = (decide (entry.id = id) || ranking.contains id) := by
  rw [contains, enters.recorded_eq, Keyed.contains_put]
  rfl

theorem agrees
    (enters : ranking.Enters next entry outpoint)
    (agrees : ranking.Agrees) :
    next.Agrees where
  distinct := enters.nodup_ids agrees
  keys_nodup := by
    rw [enters.recorded_eq]
    exact Keyed.nodup_keys_put agrees.keys_nodup _ _
  contains_eq := by
    intro id
    rw [enters.contains_eq, enters.get?_eq agrees, agrees.contains_eq]
    split
    · rename_i same
      simp [same]
    · rename_i other
      simp [other]

end Enters

@[simp] theorem outpoints_empty
    (id : Digest) :
    (empty : Ranking α).outpoints id = [] :=
  rfl

theorem agrees_empty :
    (empty : Ranking α).Agrees where
  distinct := List.nodup_nil
  keys_nodup := List.nodup_nil
  contains_eq := fun _ => rfl

/-- Whatever is pushed, the list and the map agree. -/
theorem Agrees.push
    (agrees : ranking.Agrees)
    (output : Output) :
    (ranking.push output).Agrees :=
  push_keeps output agrees (agrees.addOutput output) fun _ _ _ enters => enters.agrees agrees

/-- Taking a name away answers with its outputs. -/
theorem fst_remove
    (ranking : Ranking α)
    (id : Digest) :
    (ranking.remove id).1 = ranking.outpoints id := by
  unfold remove outpoints
  cases ranking.recorded.get? id with
  | none => rfl
  | some outpoints => cases ranking.get? id <;> rfl

/-- Taking a name away forgets its outputs. -/
theorem recorded_remove
    (ranking : Ranking α)
    (id : Digest) :
    (ranking.remove id).2.recorded = ranking.recorded.erase id := by
  unfold remove
  cases found : ranking.recorded.get? id with
  | none => exact (Keyed.erase_of_get?_eq_none found).symm
  | some outpoints => cases ranking.get? id <;> rfl

theorem recorded_get?_remove
    (ranking : Ranking α)
    (id other : Digest) :
    (ranking.remove id).2.recorded.get? other =
      if id = other then none else ranking.recorded.get? other := by
  rw [recorded_remove, Keyed.get?_erase]

theorem outpoints_remove
    (ranking : Ranking α)
    (id other : Digest) :
    (ranking.remove id).2.outpoints other = if id = other then [] else ranking.outpoints other := by
  rw [outpoints, recorded_get?_remove]
  split <;> rfl

theorem contains_remove
    (ranking : Ranking α)
    (id other : Digest) :
    (ranking.remove id).2.contains other = (!decide (id = other) && ranking.contains other) := by
  rw [contains, recorded_remove, Keyed.contains_erase]
  rfl

/-- Taking a name away takes at most its entry. -/
theorem sublist_entries_remove
    (ranking : Ranking α)
    (id : Digest) :
    (ranking.remove id).2.entries.Sublist ranking.entries := by
  unfold remove
  split
  · exact List.Sublist.refl _
  · dsimp only
    split
    · exact List.Sublist.refl _
    · exact List.eraseP_sublist

namespace Agrees

/-- Taking a name away leaves the other names. -/
theorem entries_remove
    (agrees : ranking.Agrees)
    (id : Digest) :
    (ranking.remove id).2.entries = ranking.entries.filter fun entry => entry.id ≠ id := by
  rw [← Keyed.eraseP_eq_filter_of_nodup agrees.distinct id]
  unfold Ranking.remove
  cases recorded : ranking.recorded.get? id with
  | none =>
      have unranked := (agrees.get?_eq_none_iff id).mpr recorded
      exact (List.eraseP_of_forall_not (List.find?_eq_none.mp unranked)).symm
  | some outpoints =>
      cases found : ranking.get? id with
      | none =>
          rw [(agrees.get?_eq_none_iff id).mp found] at recorded
          contradiction
      | some entry => rfl

theorem get?_remove
    (agrees : ranking.Agrees)
    (id other : Digest) :
    (ranking.remove id).2.get? other = if id = other then none else ranking.get? other := by
  unfold get?
  rw [agrees.entries_remove]
  exact Keyed.find?_filter_key RankedBounty.id ranking.entries id other

theorem remove
    (agrees : ranking.Agrees)
    (id : Digest) :
    (ranking.remove id).2.Agrees where
  distinct := agrees.distinct.sublist
    ((ranking.sublist_entries_remove id).map RankedBounty.id)
  keys_nodup := by
    rw [recorded_remove]
    exact Keyed.nodup_keys_erase agrees.keys_nodup id
  contains_eq := by
    intro other
    rw [contains_remove, agrees.get?_remove, agrees.contains_eq]
    split
    · rename_i same
      simp [same]
    · rename_i different
      simp [different]

end Agrees

/-- A draw falls on a script that is ranked. -/
theorem exists_of_select?
    {costs : CostModel α}
    {draw : α}
    {script : LockingScript}
    (selected : ranking.select? costs draw = some script) :
    ∃ entry ∈ ranking.entries, entry.script = script := by
  obtain ⟨position, _, found⟩ := Option.bind_eq_some_iff.mp selected
  obtain ⟨entry, atPosition, rfl⟩ := Option.map_eq_some_iff.mp found
  exact ⟨entry, List.mem_of_getElem? atPosition, rfl⟩

end Ranking
end WorkMarket
