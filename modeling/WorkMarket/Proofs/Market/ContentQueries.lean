import WorkMarket.Proofs.Market.ContentRecords
import WorkMarket.Proofs.Market.StandingScripts
import WorkMarket.Proofs.Number.ExactSums

/-!
# Questions about content

What matches a query are the scripts that stand and are asked for, each of them once
and with its record, in whatever order the ledger keeps them.  The records gather
them by content, and pages cut the records without losing or repeating one.
-/

namespace WorkMarket
namespace ContentQuery

/-- Whether a script first seen at some instant is what a query asks for. -/
structure Asks
    (query : ContentQuery)
    (script : LockingScript)
    (firstSeen : Instant) : Prop where
  digest : ∀ digest, query.digest = some digest → digest = script.content
  title : ∀ title, query.title = some title → title = hash256 script.data
  tag : ∀ tag, query.tag = some tag → tag = script.tag
  earliest : ∀ earliest, query.earliest = some earliest → firstSeen.isBefore earliest = false
  latest : ∀ latest, query.latest = some latest → firstSeen.isBefore latest = true

theorem matches?_iff
    (query : ContentQuery)
    (script : LockingScript)
    (firstSeen : Instant) :
    query.matches? script firstSeen = true ↔ query.Asks script firstSeen := by
  simp only [matches?, admits, Bool.and_eq_true, Option.all_eq_true, decide_eq_true_eq,
    Bool.not_eq_true']
  constructor
  · rintro ⟨⟨⟨⟨digest, title⟩, tag⟩, earliest⟩, latest⟩
    exact ⟨digest, title, tag, earliest, latest⟩
  · rintro ⟨digest, title, tag, earliest, latest⟩
    exact ⟨⟨⟨⟨digest, title⟩, tag⟩, earliest⟩, latest⟩

instance (query : ContentQuery) (script : LockingScript) (firstSeen : Instant) :
    Decidable (query.Asks script firstSeen) :=
  decidable_of_iff _ (query.matches?_iff script firstSeen)

/-- What an entry has for a query. -/
theorem matched_eq_some_iff
    {α : Type}
    (query : ContentQuery)
    (entry : LedgerEntry α)
    (found : LockingScript × ScriptRecord α) :
    (entry.script.bind fun script =>
        if query.matches? script entry.firstSeen then some (script, entry.record) else none) =
        some found ↔
      entry.script = some found.1 ∧ query.Asks found.1 entry.firstSeen ∧
        found.2 = entry.record := by
  rw [Option.bind_eq_some_iff, ← query.matches?_iff]
  constructor
  · rintro ⟨script, isScript, answer⟩
    split at answer
    · rename_i isMatch
      obtain rfl := Option.some.inj answer
      exact ⟨isScript, isMatch, rfl⟩
    · contradiction
  · rintro ⟨isScript, isMatch, isRecord⟩
    exact ⟨found.1, isScript, by rw [if_pos isMatch, ← isRecord]⟩

/-- A query for one page of the same records. -/
def page
    (query : ContentQuery)
    (first max : UInt64) :
    ContentQuery :=
  { query with firstRecord := first, maxRecords := max }

end ContentQuery

section Pages

variable {β : Type}

/-- Pages of one size in turn are a beginning of the list. -/
theorem flatMap_pages
    (values : List β)
    (size count : Nat) :
    ((List.range count).flatMap fun page => (values.drop (page * size)).take size) =
      values.take (count * size) := by
  induction count with
  | zero => simp
  | succ count inductionHypothesis =>
      rw [List.range_succ, List.flatMap_append, inductionHypothesis, List.flatMap_singleton,
        Nat.succ_mul, List.take_add]

end Pages

namespace Ledger

/-- The scripts that stand and are asked for. -/
def asked
    (history : List Operation)
    (query : ContentQuery) :
    List LockingScript :=
  (standing history).filter fun script =>
    (firstSeen? history script.id).any fun firstSeen => query.Asks script firstSeen

section Matching

variable {α : Type} [Scalar α] {ledger : Ledger α} {history : List Operation}

theorem mem_asked_iff
    {query : ContentQuery}
    {script : LockingScript} :
    script ∈ asked history query ↔
      lastPut? history script.id = some script ∧
        ∃ firstSeen, firstSeen? history script.id = some firstSeen ∧
          query.Asks script firstSeen := by
  unfold asked
  rw [List.mem_filter, mem_standing_iff, Option.any_eq_true]
  simp only [decide_eq_true_eq]

/-- What the entry of a name says. -/
theorem Files.of_mem
    (files : ledger.Files history)
    {id : Digest}
    {entry : LedgerEntry α}
    (present : (id, entry) ∈ ledger.entries.entries) :
    lastPut? history id = entry.script ∧ firstSeen? history id = some entry.firstSeen ∧
      ledger.get id = entry.record := by
  have found := (Keyed.get?_eq_some_iff_mem files.distinct id entry).mpr present
  have script := files.scripts id
  have seen := files.seen id
  rw [found] at script seen
  refine ⟨script.symm, seen.symm, ?_⟩
  rw [get, found]
  rfl

/-- The script of an entry is one of its name. -/
theorem Files.id_eq
    (files : ledger.Files history)
    {id : Digest}
    {entry : LedgerEntry α}
    {script : LockingScript}
    (present : (id, entry) ∈ ledger.entries.entries)
    (isScript : entry.script = some script) :
    script.id = id :=
  (lastPut?_eq_some ((files.of_mem present).1.trans isScript)).2

/-- What matches is what stands and is asked for, with what is known about it. -/
theorem Files.mem_matching_iff
    (files : ledger.Files history)
    (query : ContentQuery)
    (found : LockingScript × ScriptRecord α) :
    found ∈ ledger.matching query ↔
      found.1 ∈ asked history query ∧ found.2 = ledger.get found.1.id := by
  unfold matching
  rw [List.mem_filterMap, mem_asked_iff]
  simp only [ContentQuery.matched_eq_some_iff]
  constructor
  · rintro ⟨entry, present, isScript, asks, isRecord⟩
    obtain ⟨⟨id, _⟩, inEntries, rfl⟩ := List.mem_map.mp present
    obtain ⟨last, seen, known⟩ := files.of_mem inEntries
    rw [files.id_eq inEntries isScript]
    exact ⟨⟨last.trans isScript, _, seen, asks⟩, isRecord.trans known.symm⟩
  · rintro ⟨⟨last, firstSeen, seen, asks⟩, isRecord⟩
    rw [← files.scripts] at last
    obtain ⟨entry, inEntries, isScript⟩ := Option.bind_eq_some_iff.mp last
    rw [Keyed.get?_eq_some_iff_mem files.distinct] at inEntries
    obtain ⟨_, isSeen, known⟩ := files.of_mem inEntries
    obtain rfl := Option.some.inj (seen.symm.trans isSeen)
    exact ⟨entry, List.mem_map_of_mem inEntries, isScript, asks, isRecord.trans known⟩

/-- Entries of different names match with different scripts. -/
theorem Files.nodup_matching
    (files : ledger.Files history)
    (query : ContentQuery) :
    (ledger.matching query).Nodup := by
  have apart : ledger.entries.entries.Pairwise fun first second => first.1 ≠ second.1 :=
    List.pairwise_map.mp files.distinct
  unfold matching Keyed.values
  rw [List.filterMap_map]
  refine List.pairwise_filterMap.mpr (apart.imp_of_mem ?_)
  intro first second inFirst inSecond different found isFound other isOther same
  obtain ⟨firstScript, -⟩ := (query.matched_eq_some_iff first.2 found).mp isFound
  obtain ⟨secondScript, -⟩ := (query.matched_eq_some_iff second.2 other).mp isOther
  rw [same] at firstScript
  exact different ((files.id_eq inFirst firstScript).symm.trans (files.id_eq inSecond secondScript))

theorem nodup_ids_asked
    (history : List Operation)
    (query : ContentQuery) :
    ((asked history query).map LockingScript.id).Nodup :=
  nodup_ids_standing.sublist (List.filter_sublist.map _)

/-- What matches is what stands and is asked for, each of it once. -/
theorem Files.matching_perm
    (files : ledger.Files history)
    (query : ContentQuery) :
    (ledger.matching query).Perm
      ((asked history query).map fun script => (script, ledger.get script.id)) := by
  have askedNodup : ((asked history query).map fun script =>
      (script, ledger.get script.id)).Nodup :=
    (List.Nodup.of_map _ (nodup_ids_asked history query)).map fun _ _ same =>
      (Prod.mk.inj same).1
  refine (List.perm_ext_iff_of_nodup (files.nodup_matching query) askedNodup).mpr fun found => ?_
  rw [files.mem_matching_iff, List.mem_map]
  constructor
  · rintro ⟨isAsked, isRecord⟩
    exact ⟨found.1, isAsked, Prod.ext rfl isRecord.symm⟩
  · rintro ⟨script, isAsked, rfl⟩
    exact ⟨isAsked, rfl⟩

end Matching

section Answers

variable {history : List Operation}

/-- Every record of content that a query asks for, on one page. -/
def allRecords
    (ledger : Ledger Rat)
    (query : ContentQuery) :
    List (ContentRecord Rat) :=
  ledger.query (query.page 0 0)

/-- What a ledger answers about the scripts that its history puts. -/
structure AnswersQuery
    (ledger : Ledger Rat)
    (history : List Operation)
    (query : ContentQuery) : Prop where
  /-- For every script that is put one stands. -/
  stands : ∀ script ∈ putScripts history, ∃ last ∈ standing history, last.StandsFor script
  /-- Without bounds in time, what is asked for are the scripts that stand and have
  what is wanted. -/
  untimed : query.earliest = none → query.latest = none →
    ∀ script, script ∈ asked history query ↔ script ∈ standing history ∧
      (∀ digest, query.digest = some digest → digest = script.content) ∧
      (∀ title, query.title = some title → title = hash256 script.data) ∧
      ∀ tag, query.tag = some tag → tag = script.tag
  /-- No name is asked for twice. -/
  once : ((asked history query).map LockingScript.id).Nodup
  ascending : ContentRecord.IsAscending (ledger.allRecords query)
  /-- There is a record for just the contents of the scripts that are asked for. -/
  contents : ∀ content, (∃ record ∈ ledger.allRecords query, record.digest = content) ↔
    ∃ script ∈ asked history query, script.content = content
  /-- A record holds just what is known about those of its own content. -/
  scripts : ∀ record ∈ ledger.allRecords query,
    record.scripts.Perm
      (((asked history query).filter fun script => script.content = record.digest).map
        fun script => ledger.get script.id)
  total : ∀ record ∈ ledger.allRecords query,
    record.total = (record.scripts.map ScriptRecord.difficulty).sum
  difficulty : ∀ script ∈ asked history query,
    (ledger.get script.id).difficulty = script.notedDifficulty Rat
  /-- A page holds the records from its first position on, as many as it has. -/
  page : ∀ first max, max ≠ 0 → ∀ index,
    (ledger.query (query.page first max))[index]? =
      if index < max.toNat then (ledger.allRecords query)[first.toNat + index]? else none
  /-- A page without a limit holds everything from its first position on. -/
  rest : ∀ first,
    ledger.query (query.page first 0) = (ledger.allRecords query).drop first.toNat
  /-- Pages of one size in turn hold the records from the first one on, as far as
  they go. -/
  pages : ∀ max count, max ≠ 0 → (count - 1) * max.toNat < UInt64.size →
    ((List.range count).flatMap fun index =>
        ledger.query (query.page (UInt64.ofNat (index * max.toNat)) max)) =
      (ledger.allRecords query).take (count * max.toNat)

theorem mem_asked_iff_of_untimed
    {query : ContentQuery}
    (earliest : query.earliest = none)
    (latest : query.latest = none)
    (script : LockingScript) :
    script ∈ asked history query ↔ script ∈ standing history ∧
      (∀ digest, query.digest = some digest → digest = script.content) ∧
      (∀ title, query.title = some title → title = hash256 script.data) ∧
      ∀ tag, query.tag = some tag → tag = script.tag := by
  rw [mem_asked_iff, mem_standing_iff]
  refine and_congr_right fun last => ?_
  constructor
  · rintro ⟨_, _, asks⟩
    exact ⟨asks.digest, asks.title, asks.tag⟩
  · rintro ⟨digest, title, tag⟩
    obtain ⟨firstSeen, seen⟩ := exists_firstSeen (lastPut?_eq_some last).1
    exact ⟨firstSeen, seen, digest, title, tag, by simp [earliest], by simp [latest]⟩

/-- The record of a content holds what stands and is asked for about it. -/
theorem Files.scripts_perm
    {ledger : Ledger Rat}
    (files : ledger.Files history)
    {query : ContentQuery}
    {record : ContentRecord Rat}
    (present : record ∈ ledger.allRecords query) :
    record.scripts.Perm
      (((asked history query).filter fun script => script.content = record.digest).map
        fun script => ledger.get script.id) := by
  have own := ((files.matching_perm query).filter fun found =>
    found.1.content = record.digest).map Prod.snd
  rw [List.filter_map, List.map_map] at own
  rw [(ledger.gathers_contents query).scripts_eq present]
  exact own

theorem query_page
    (ledger : Ledger Rat)
    (query : ContentQuery)
    (first : UInt64)
    {max : UInt64}
    (limited : max ≠ 0) :
    ledger.query (query.page first max) =
      ((ledger.allRecords query).drop first.toNat).take max.toNat :=
  if_neg limited

theorem Files.answersQuery
    {ledger : Ledger Rat}
    (files : ledger.Files history)
    (query : ContentQuery) :
    ledger.AnswersQuery history query where
  stands := fun _ => exists_standsFor
  untimed := mem_asked_iff_of_untimed
  once := nodup_ids_asked history query
  ascending := (ledger.gathers_contents query).ascending
  contents := by
    intro content
    refine ((ledger.gathers_contents query).exists_record_iff content).trans ?_
    constructor
    · rintro ⟨found, present, isContent⟩
      exact ⟨found.1, ((files.mem_matching_iff query found).mp present).1, isContent⟩
    · rintro ⟨script, isAsked, isContent⟩
      exact ⟨(script, ledger.get script.id),
        (files.mem_matching_iff query _).mpr ⟨isAsked, rfl⟩, isContent⟩
  scripts := fun _ => files.scripts_perm
  total := by
    intro record present
    have total := (ledger.gathers_contents query).total_eq present
    exact total.trans ((foldl_add_eq 0 _).trans (zero_add _))
  difficulty := by
    intro script isAsked
    have last := (mem_asked_iff.mp isAsked).1
    rw [← files.scripts] at last
    obtain ⟨entry, found, isScript⟩ := Option.bind_eq_some_iff.mp last
    rw [get, found]
    exact files.noted _ entry script found isScript
  page := by
    intro first max limited index
    rw [ledger.query_page query first limited, List.getElem?_take, List.getElem?_drop]
  rest := fun _ => rfl
  pages := by
    intro max count limited bounded
    rw [← flatMap_pages]
    refine List.flatMap_congr fun index inRange => ?_
    have le : index ≤ count - 1 := Nat.le_pred_of_lt (List.mem_range.mp inRange)
    have small : index * max.toNat < UInt64.size :=
      (Nat.mul_le_mul_right _ le).trans_lt bounded
    rw [ledger.query_page query _ limited, UInt64.toNat_ofNat_of_lt' small]

/-- Whatever happens to an empty ledger, it answers every query about the scripts
that were put. -/
theorem run_answersQuery
    (history : List Operation)
    (query : ContentQuery) :
    ((empty : Ledger Rat).run history).AnswersQuery history query :=
  (files_run history).answersQuery query

end Answers

end Ledger
end WorkMarket
