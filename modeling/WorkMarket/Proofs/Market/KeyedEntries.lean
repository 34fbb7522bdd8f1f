import Mathlib.Data.List.Induction
import Mathlib.Data.List.Nodup
import WorkMarket.Market.Keyed

/-!
# Entries with distinct keys

The ranking, the queue and the board look entries up by name.  Where no name
stands twice, the first entry found under a name is the only one, and leaving
one out leaves no other of its name.  A finite map keeps its keys distinct, may
have them in any order without finding anything else, and a list without its
repetitions keeps what came first.
-/

namespace WorkMarket

section Repetitions

variable {β : Type} [DecidableEq β]

/-- What a list repeats is dropped. -/
theorem eraseDups_concat
    (values : List β)
    (value : β) :
    (values ++ [value]).eraseDups =
      values.eraseDups ++ if value ∈ values then [] else [value] := by
  rw [List.eraseDups_append]
  by_cases present : value ∈ values <;>
    simp [List.removeAll, present, List.eraseDups_cons]

theorem nodup_eraseDups
    (values : List β) :
    values.eraseDups.Nodup := by
  induction values using List.reverseRecOn with
  | nil => exact List.Pairwise.nil
  | append_singleton values value inductionHypothesis =>
      rw [eraseDups_concat]
      split
      · rwa [List.append_nil]
      · rename_i isNew
        refine List.nodup_append.mpr
          ⟨inductionHypothesis, List.pairwise_singleton _ _, ?_⟩
        intro earlier present other isOther
        rw [List.mem_singleton.mp isOther]
        rintro rfl
        exact isNew (List.mem_eraseDups.mp present)

end Repetitions

namespace Keyed

variable {κ β : Type} [DecidableEq κ]

/-- Under a key stands just what is found there, where no key stands twice. -/
theorem find?_eq_some_iff_of_nodup
    {key : β → κ}
    {entries : List β}
    (distinct : (entries.map key).Nodup)
    (wanted : κ)
    (entry : β) :
    entries.find? (fun other => key other = wanted) = some entry ↔
      entry ∈ entries ∧ key entry = wanted := by
  constructor
  · intro found
    exact ⟨List.mem_of_find?_eq_some found, by simpa using List.find?_some found⟩
  · rintro ⟨present, rfl⟩
    induction entries with
    | nil => contradiction
    | cons first rest inductionHypothesis =>
        rw [List.map_cons, List.nodup_cons] at distinct
        rcases List.mem_cons.mp present with rfl | inRest
        · exact List.find?_cons_of_pos (by simp)
        · have other : key first ≠ key entry := by
            intro same
            exact distinct.1 (same ▸ List.mem_map_of_mem inRest)
          rw [List.find?_cons_of_neg (by simpa using other)]
          exact inductionHypothesis distinct.2 inRest

/-- Where no key stands twice, leaving out the first entry of a key leaves out
every one. -/
theorem eraseP_eq_filter_of_nodup
    {key : β → κ}
    {entries : List β}
    (distinct : (entries.map key).Nodup)
    (unwanted : κ) :
    (entries.eraseP fun entry => key entry = unwanted) =
      entries.filter fun entry => key entry ≠ unwanted := by
  induction entries with
  | nil => rfl
  | cons first rest inductionHypothesis =>
      rw [List.map_cons, List.nodup_cons] at distinct
      by_cases same : key first = unwanted
      · have others : ∀ entry ∈ rest, key entry ≠ unwanted := by
          intro entry present equal
          exact distinct.1 (same.trans equal.symm ▸ List.mem_map_of_mem present)
        rw [List.eraseP_cons_of_pos (by simpa using same),
          List.filter_cons_of_neg (by simpa using same)]
        exact (List.filter_eq_self.mpr fun entry present => by
          simpa using others entry present).symm
      · rw [List.eraseP_cons_of_neg (by simpa using same),
          List.filter_cons_of_pos (by simpa using same), inductionHypothesis distinct.2]

/-- What is found after leaving out a key. -/
theorem find?_filter_key
    (key : β → κ)
    (entries : List β)
    (unwanted wanted : κ) :
    (entries.filter fun entry => key entry ≠ unwanted).find?
        (fun entry => key entry = wanted) =
      if unwanted = wanted then none else entries.find? fun entry => key entry = wanted := by
  rw [List.find?_filter]
  split
  · rename_i same
    subst same
    simp
  · rename_i other
    congr 1
    funext entry
    by_cases found : key entry = wanted
    · simp [found, Ne.symm other]
    · simp [found]

/-- The keys are those that have a value. -/
theorem mem_keys_iff
    {map : Keyed κ β}
    {key : κ} :
    key ∈ map.keys ↔ map.contains key = true := by
  simp [keys, contains, get?, List.find?_isSome]

/-- Putting a value under a key adds at most that key. -/
theorem mem_keys_putEntry
    {key other : κ}
    {value : β}
    {entries : List (κ × β)} :
    other ∈ (putEntry key value entries).map Prod.fst ↔
      other = key ∨ other ∈ entries.map Prod.fst := by
  induction entries with
  | nil => simp [putEntry]
  | cons entry rest inductionHypothesis =>
      unfold putEntry
      split
      · rename_i same
        simp only [List.map_cons, List.mem_cons, same]
        exact or_self_left.symm
      · simp only [List.map_cons, List.mem_cons, inductionHypothesis]
        exact or_left_comm

theorem nodup_keys_put
    {map : Keyed κ β}
    (distinct : map.keys.Nodup)
    (key : κ)
    (value : β) :
    (map.put key value).keys.Nodup := by
  obtain ⟨entries⟩ := map
  change (entries.map Prod.fst).Nodup at distinct
  change ((putEntry key value entries).map Prod.fst).Nodup
  induction entries with
  | nil => simp [putEntry]
  | cons entry rest inductionHypothesis =>
      rw [List.map_cons, List.nodup_cons] at distinct
      unfold putEntry
      split
      · rename_i same
        rw [List.map_cons, List.nodup_cons]
        exact ⟨same ▸ distinct.1, distinct.2⟩
      · rename_i other
        rw [List.map_cons, List.nodup_cons, mem_keys_putEntry]
        exact ⟨fun present => present.elim other distinct.1, inductionHypothesis distinct.2⟩

/-- What has a value keeps one. -/
theorem isSome_get?_put
    {map : Keyed κ β}
    {key : κ}
    (known : (map.get? key).isSome = true)
    (other : κ)
    (value : β) :
    ((map.put other value).get? key).isSome = true := by
  rw [get?_put]
  split
  · rfl
  · exact known

theorem nodup_keys_erase
    {map : Keyed κ β}
    (distinct : map.keys.Nodup)
    (key : κ) :
    (map.erase key).keys.Nodup :=
  distinct.sublist (List.filter_sublist.map Prod.fst)

/-- Where keys are distinct, every entry is what is found under its key. -/
theorem get?_eq_some_iff_mem
    {map : Keyed κ β}
    (distinct : map.keys.Nodup)
    (key : κ)
    (value : β) :
    map.get? key = some value ↔ (key, value) ∈ map.entries := by
  unfold get?
  rw [Option.map_eq_some_iff]
  simp only [find?_eq_some_iff_of_nodup distinct]
  constructor
  · rintro ⟨⟨_, _⟩, ⟨present, rfl⟩, rfl⟩
    exact present
  · intro present
    exact ⟨(key, value), ⟨present, rfl⟩, rfl⟩

/-- Putting what a key has already changes nothing. -/
theorem put_of_get?_eq_some
    {map : Keyed κ β}
    {key : κ}
    {value : β}
    (found : map.get? key = some value) :
    map.put key value = map := by
  obtain ⟨entries⟩ := map
  change (entries.find? fun entry => entry.1 = key).map Prod.snd = some value at found
  change Keyed.mk (putEntry key value entries) = _
  congr 1
  induction entries with
  | nil => contradiction
  | cons entry rest inductionHypothesis =>
      unfold putEntry
      split
      · rename_i same
        rw [List.find?_cons_of_pos (by simpa using same)] at found
        obtain ⟨_, _⟩ := entry
        obtain rfl := Option.some.inj found
        rw [← same]
      · rename_i other
        rw [List.find?_cons_of_neg (by simpa using other)] at found
        rw [inductionHypothesis found]

/-- A key that has no value comes last. -/
theorem entries_put_of_get?_eq_none
    {map : Keyed κ β}
    {key : κ}
    (absent : map.get? key = none)
    (value : β) :
    (map.put key value).entries = map.entries ++ [(key, value)] := by
  obtain ⟨entries⟩ := map
  change (entries.find? fun entry => entry.1 = key).map Prod.snd = none at absent
  rw [Option.map_eq_none_iff, List.find?_eq_none] at absent
  change putEntry key value entries = entries ++ [(key, value)]
  induction entries with
  | nil => rfl
  | cons entry rest inductionHypothesis =>
      have other : entry.1 ≠ key := by simpa using absent entry List.mem_cons_self
      have later := inductionHypothesis fun entry present =>
        absent entry (List.mem_cons_of_mem _ present)
      rw [putEntry, if_neg other, later, List.cons_append]

/-- Putting a value in the place of another changes no other entry. -/
theorem perm_entries_put
    {map : Keyed κ β}
    {key : κ}
    {earlier : β}
    (found : map.get? key = some earlier)
    (value : β) :
    ((key, earlier) :: (map.put key value).entries).Perm ((key, value) :: map.entries) := by
  obtain ⟨entries⟩ := map
  change (entries.find? fun entry => entry.1 = key).map Prod.snd = some earlier at found
  change (_ :: putEntry key value entries).Perm _
  induction entries with
  | nil => contradiction
  | cons entry rest inductionHypothesis =>
      unfold putEntry
      split
      · rename_i same
        rw [List.find?_cons_of_pos (by simpa using same)] at found
        obtain ⟨_, _⟩ := entry
        obtain rfl := Option.some.inj found
        subst same
        exact List.Perm.swap _ _ _
      · rename_i other
        rw [List.find?_cons_of_neg (by simpa using other)] at found
        exact (List.Perm.swap _ _ _).trans
          (((inductionHypothesis found).cons entry).trans (List.Perm.swap _ _ _))

/-- Where keys are distinct, taking one away takes just its entry. -/
theorem perm_entries_erase
    {map : Keyed κ β}
    (distinct : map.keys.Nodup)
    {key : κ}
    {earlier : β}
    (found : map.get? key = some earlier) :
    ((key, earlier) :: (map.erase key).entries).Perm map.entries := by
  have present := (get?_eq_some_iff_mem distinct key earlier).mp found
  have apart : (key, earlier) ∉ (map.erase key).entries := by
    simp [erase]
  have entriesNodup : map.entries.Nodup := List.Nodup.of_map Prod.fst distinct
  have erasedNodup : ((key, earlier) :: (map.erase key).entries).Nodup :=
    List.nodup_cons.mpr ⟨apart, entriesNodup.filter _⟩
  refine (List.perm_ext_iff_of_nodup erasedNodup entriesNodup).mpr fun entry => ?_
  constructor
  · intro inErased
    rcases List.mem_cons.mp inErased with rfl | kept
    · exact present
    · exact (List.mem_filter.mp kept).1
  · intro inMap
    by_cases same : entry.1 = key
    · have value := (get?_eq_some_iff_mem distinct entry.1 entry.2).mpr inMap
      rw [same, found] at value
      rw [Option.some.inj value, ← same]
      exact List.mem_cons_self
    · exact List.mem_cons_of_mem _ (List.mem_filter.mpr ⟨inMap, by simpa using same⟩)

theorem mem_values_put
    {map : Keyed κ β}
    {key : κ}
    {value other : β}
    (present : other ∈ (map.put key value).values) :
    other = value ∨ other ∈ map.values := by
  cases found : map.get? key with
  | none =>
      rw [values, entries_put_of_get?_eq_none found] at present
      simpa [values, or_comm] using present
  | some earlier =>
      have entries := (perm_entries_put found value).map Prod.snd
      exact List.mem_cons.mp (entries.mem_iff.mp (List.mem_cons_of_mem _ present))

theorem size_put_of_some
    {map : Keyed κ β}
    {key : κ}
    {earlier : β}
    (found : map.get? key = some earlier)
    (value : β) :
    (map.put key value).size = map.size :=
  Nat.succ.inj (perm_entries_put found value).length_eq

theorem size_erase
    {map : Keyed κ β}
    {key : κ}
    (distinct : map.keys.Nodup)
    {earlier : β}
    (found : map.get? key = some earlier) :
    (map.erase key).size + 1 = map.size :=
  (perm_entries_erase distinct found).length_eq

/-- Taking a key away that has no value changes nothing. -/
theorem erase_of_get?_eq_none
    {map : Keyed κ β}
    {key : κ}
    (absent : map.get? key = none) :
    map.erase key = map := by
  obtain ⟨entries⟩ := map
  change (entries.find? fun entry => entry.1 = key).map Prod.snd = none at absent
  rw [Option.map_eq_none_iff, List.find?_eq_none] at absent
  change Keyed.mk (entries.filter fun entry => entry.1 ≠ key) = _
  congr 1
  exact List.filter_eq_self.mpr fun entry present => by simpa using absent entry present

section Order

variable {map : Keyed κ β}

omit [DecidableEq κ] in
theorem keys_mapValues
    {γ : Type}
    (map : Keyed κ β)
    (change : κ → β → γ) :
    (map.mapValues change).keys = map.keys :=
  List.map_map

/-- In another order stand the same entries. -/
theorem perm_entries_arrange
    (map : Keyed κ β)
    (order : List κ) :
    (map.arrange order).entries.Perm map.entries :=
  List.mergeSort_perm _ _

theorem nodup_keys_arrange
    (distinct : map.keys.Nodup)
    (order : List κ) :
    (map.arrange order).keys.Nodup :=
  ((map.perm_entries_arrange order).map Prod.fst).nodup_iff.mpr distinct

/-- The order does not matter to what is found. -/
theorem get?_arrange
    (distinct : map.keys.Nodup)
    (order : List κ)
    (key : κ) :
    (map.arrange order).get? key = map.get? key := by
  apply Option.ext
  intro value
  rw [get?_eq_some_iff_mem (nodup_keys_arrange distinct order), get?_eq_some_iff_mem distinct,
    (map.perm_entries_arrange order).mem_iff]

/-- Every order of the keys can be had. -/
theorem keys_arrange
    (distinct : map.keys.Nodup)
    {order : List κ}
    (perm : order.Perm map.keys) :
    (map.arrange order).keys = order := by
  let before (key other : κ) : Bool := order.idxOf key ≤ order.idxOf other
  have sorted : (map.arrange order).keys = map.keys.mergeSort before :=
    List.map_mergeSort fun _ _ _ _ => rfl
  have transitive (first second third : κ) :
      before first second → before second third → before first third := by
    simp only [before, decide_eq_true_eq]
    exact Nat.le_trans
  have total (first second : κ) : (before first second || before second first) = true := by
    simp only [before, Bool.or_eq_true, decide_eq_true_eq]
    exact Nat.le_total _ _
  have listed : order.Pairwise fun key other => before key other = true := by
    have once : order.Nodup := perm.nodup_iff.mpr distinct
    refine List.pairwise_iff_getElem.mpr fun first second firstInside secondInside less => ?_
    simp only [before, once.idxOf_getElem, decide_eq_true_eq]
    exact Nat.le_of_lt less
  rw [sorted]
  refine List.Perm.eq_of_pairwise ?_ (List.pairwise_mergeSort transitive total map.keys) listed
    ((List.mergeSort_perm _ _).trans perm.symm)
  intro key other _ present le ge
  simp only [before, decide_eq_true_eq] at le ge
  exact ((List.idxOf_inj present).mp (Nat.le_antisymm ge le)).symm

end Order

end Keyed
end WorkMarket
