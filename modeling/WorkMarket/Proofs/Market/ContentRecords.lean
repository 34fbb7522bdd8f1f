import Mathlib.Algebra.BigOperators.Group.List.Basic
import Mathlib.Algebra.Ring.Rat
import Mathlib.Data.List.Induction
import WorkMarket.Market.Ledger

/-!
# Scripts gathered by content

Scripts are gathered one at a time into records, one record for each content, and
the records stay in strictly ascending order.  `Gathers` is what another script
preserves: a record holds just the scripts of its content, in the order in which
they came, no record is empty, and its total is the sum of their difficulties.
-/

namespace WorkMarket
namespace FixedBytes

variable {size : Nat} {first second third : FixedBytes size}

theorem precedes_iff :
    first.precedes second = true ↔ first.toList < second.toList :=
  decide_eq_true_iff

theorem ne_of_precedes
    (before : first.precedes second = true) :
    first ≠ second := by
  rintro rfl
  exact List.lt_irrefl _ (precedes_iff.mp before)

theorem precedes_trans
    (before : first.precedes second = true)
    (after : second.precedes third = true) :
    first.precedes third = true :=
  precedes_iff.mpr (List.lt_trans (precedes_iff.mp before) (precedes_iff.mp after))

/-- Of two different values one comes first. -/
theorem precedes_of_ne
    (different : first ≠ second)
    (notAfter : ¬second.precedes first = true) :
    first.precedes second = true := by
  rw [precedes_iff] at notAfter ⊢
  by_contra notBefore
  exact different (toList_injective
    (List.le_antisymm (List.not_lt.mp notAfter) (List.not_lt.mp notBefore)))

end FixedBytes

namespace ContentRecord

section Insertion

variable {α : Type} [Scalar α] {records : List (ContentRecord α)} {content : Digest}

/-- Whether records stand in strictly ascending order of content. -/
def IsAscending
    (records : List (ContentRecord α)) : Prop :=
  records.Pairwise fun first second => first.digest.precedes second.digest = true

/-- The record of a content, which is an empty one if there is none. -/
def recordOf
    (content : Digest)
    (records : List (ContentRecord α)) :
    ContentRecord α :=
  (records.find? fun record => record.digest = content).getD ⟨content, [], Scalar.zero⟩

/-- A record with another script. -/
def add
    (record : ContentRecord α)
    (script : ScriptRecord α) :
    ContentRecord α :=
  ⟨record.digest, record.scripts ++ [script], record.total + script.difficulty⟩

/-- The record of a content is one of the records, or there is none. -/
theorem recordOf_cases
    (content : Digest)
    (records : List (ContentRecord α)) :
    (recordOf content records ∈ records ∧ (recordOf content records).digest = content) ∨
      (∀ record ∈ records, record.digest ≠ content) ∧
        recordOf content records = ⟨content, [], Scalar.zero⟩ := by
  unfold recordOf
  cases found : records.find? fun record => record.digest = content with
  | some record =>
      exact Or.inl ⟨List.mem_of_find?_eq_some found, by simpa using List.find?_some found⟩
  | none => exact Or.inr ⟨by simpa using List.find?_eq_none.mp found, rfl⟩

theorem digest_recordOf
    (content : Digest)
    (records : List (ContentRecord α)) :
    (recordOf content records).digest = content := by
  rcases recordOf_cases content records with ⟨_, same⟩ | ⟨_, isNew⟩
  · exact same
  · rw [isNew]

/-- Where no record is of a content, its record is a new one. -/
theorem recordOf_of_ne
    (others : ∀ record ∈ records, record.digest ≠ content) :
    recordOf content records = ⟨content, [], Scalar.zero⟩ := by
  rcases recordOf_cases content records with ⟨present, same⟩ | ⟨_, isNew⟩
  · exact absurd same (others _ present)
  · exact isNew

/-- Another script goes into the record of its content, and the other records stay
as they are. -/
theorem mem_insert_iff
    (ascending : IsAscending records)
    (script : ScriptRecord α)
    (record : ContentRecord α) :
    record ∈ insert content script records ↔
      record = (recordOf content records).add script ∨
        record ∈ records ∧ record.digest ≠ content := by
  induction records with
  | nil => simp [insert, recordOf, add]
  | cons first rest inductionHypothesis =>
      obtain ⟨before, ascendingRest⟩ := List.pairwise_cons.mp ascending
      unfold insert
      split
      · rename_i same
        have others : ∀ later ∈ rest, later.digest ≠ content := fun later present =>
          same ▸ (FixedBytes.ne_of_precedes (before later present)).symm
        have isFirst : recordOf content (first :: rest) = first := by
          simp [recordOf, same]
        rw [isFirst, add, same, List.mem_cons, List.mem_cons]
        refine or_congr_right ⟨fun present => ⟨Or.inr present, others record present⟩, ?_⟩
        rintro ⟨rfl | present, different⟩
        · exact absurd same different
        · exact present
      · rename_i different
        split
        · rename_i isLess
          have others : ∀ other ∈ first :: rest, other.digest ≠ content := by
            intro other present
            rcases List.mem_cons.mp present with rfl | later
            · exact different
            · exact (FixedBytes.ne_of_precedes
                (FixedBytes.precedes_trans isLess (before other later))).symm
          rw [recordOf_of_ne others, List.mem_cons]
          exact or_congr_right
            ⟨fun present => ⟨present, others record present⟩, And.left⟩
        · have inRest : recordOf content (first :: rest) = recordOf content rest := by
            simp [recordOf, different]
          rw [List.mem_cons, inductionHypothesis ascendingRest, inRest, List.mem_cons]
          constructor
          · rintro (rfl | isNew | ⟨present, other⟩)
            · exact Or.inr ⟨Or.inl rfl, different⟩
            · exact Or.inl isNew
            · exact Or.inr ⟨Or.inr present, other⟩
          · rintro (isNew | ⟨rfl | present, other⟩)
            · exact Or.inr (Or.inl isNew)
            · exact Or.inl rfl
            · exact Or.inr (Or.inr ⟨present, other⟩)

theorem IsAscending.insert
    (ascending : IsAscending records)
    (content : Digest)
    (script : ScriptRecord α) :
    IsAscending (ContentRecord.insert content script records) := by
  induction records with
  | nil => exact List.pairwise_singleton _ _
  | cons first rest inductionHypothesis =>
      obtain ⟨before, ascendingRest⟩ := List.pairwise_cons.mp ascending
      unfold ContentRecord.insert
      split
      · rename_i same
        exact List.pairwise_cons.mpr ⟨same ▸ before, ascendingRest⟩
      · rename_i different
        split
        · rename_i isLess
          refine List.pairwise_cons.mpr ⟨fun other present => ?_, ascending⟩
          rcases List.mem_cons.mp present with rfl | later
          · exact isLess
          · exact FixedBytes.precedes_trans isLess (before other later)
        · rename_i notLess
          refine List.pairwise_cons.mpr
            ⟨fun other present => ?_, inductionHypothesis ascendingRest⟩
          rcases (mem_insert_iff ascendingRest script other).mp present with rfl | ⟨later, _⟩
          · change first.digest.precedes (recordOf content rest).digest = true
            rw [digest_recordOf]
            exact FixedBytes.precedes_of_ne different notLess
          · exact before other later

end Insertion

section Gathering

variable {α : Type} [Scalar α] {found : List (LockingScript × ScriptRecord α)}
  {records : List (ContentRecord α)}

/-- What was found about a content, in one record. -/
def gathered
    (found : List (LockingScript × ScriptRecord α))
    (content : Digest) :
    ContentRecord α :=
  let scripts := (found.filter fun other => other.1.content = content).map Prod.snd
  ⟨content, scripts, (scripts.map ScriptRecord.difficulty).foldl (· + ·) Scalar.zero⟩

theorem gathered_concat
    (found : List (LockingScript × ScriptRecord α))
    (last : LockingScript × ScriptRecord α)
    (content : Digest) :
    gathered (found ++ [last]) content =
      if last.1.content = content then (gathered found content).add last.2
      else gathered found content := by
  unfold gathered
  rw [List.filter_append]
  by_cases same : last.1.content = content
  · rw [if_pos same, List.filter_singleton, decide_eq_true same]
    simp [add]
  · rw [if_neg same, List.filter_singleton, decide_eq_false same]
    simp

/-- Where nothing was found about a content, there is nothing to gather. -/
theorem gathered_of_ne
    {content : Digest}
    (others : ∀ other ∈ found, other.1.content ≠ content) :
    gathered found content = ⟨content, [], Scalar.zero⟩ := by
  have none : (found.filter fun other => other.1.content = content) = [] :=
    List.filter_eq_nil_iff.mpr fun other present => by simpa using others other present
  unfold gathered
  rw [none]
  rfl

/-- Whether records hold just what was found, each content in a record of its own. -/
structure Gathers
    (records : List (ContentRecord α))
    (found : List (LockingScript × ScriptRecord α)) : Prop where
  ascending : IsAscending records
  mem_iff : ∀ record, record ∈ records ↔
    (∃ other ∈ found, other.1.content = record.digest) ∧ record = gathered found record.digest

theorem gathers_nil :
    Gathers ([] : List (ContentRecord α)) [] where
  ascending := List.Pairwise.nil
  mem_iff := by simp

/-- There is a record for just the contents that something was found about. -/
theorem Gathers.exists_record_iff
    (gathers : Gathers records found)
    (content : Digest) :
    (∃ record ∈ records, record.digest = content) ↔
      ∃ other ∈ found, other.1.content = content := by
  constructor
  · rintro ⟨record, present, rfl⟩
    exact ((gathers.mem_iff record).mp present).1
  · rintro ⟨other, inFound, isContent⟩
    exact ⟨gathered found content,
      (gathers.mem_iff _).mpr ⟨⟨other, inFound, isContent⟩, rfl⟩, rfl⟩

/-- A record holds what was found about its content, in turn. -/
theorem Gathers.scripts_eq
    (gathers : Gathers records found)
    {record : ContentRecord α}
    (present : record ∈ records) :
    record.scripts =
      (found.filter fun other => other.1.content = record.digest).map Prod.snd :=
  congrArg ContentRecord.scripts ((gathers.mem_iff record).mp present).2

/-- Its total is the difficulties added up in turn. -/
theorem Gathers.total_eq
    (gathers : Gathers records found)
    {record : ContentRecord α}
    (present : record ∈ records) :
    record.total =
      (record.scripts.map ScriptRecord.difficulty).foldl (· + ·) Scalar.zero := by
  rw [gathers.scripts_eq present]
  exact congrArg ContentRecord.total ((gathers.mem_iff record).mp present).2

/-- The record of a content is what was found about it. -/
theorem Gathers.recordOf_eq
    (gathers : Gathers records found)
    (content : Digest) :
    recordOf content records = gathered found content := by
  rcases recordOf_cases content records with ⟨present, same⟩ | ⟨others, isNew⟩
  · rw [((gathers.mem_iff _).mp present).2, same]
  · rw [isNew, gathered_of_ne]
    intro other inFound isContent
    exact others (gathered found content)
      ((gathers.mem_iff _).mpr ⟨⟨other, inFound, isContent⟩, rfl⟩) rfl

/-- One more script is gathered. -/
theorem Gathers.insert
    (gathers : Gathers records found)
    (last : LockingScript × ScriptRecord α) :
    Gathers (ContentRecord.insert last.1.content last.2 records) (found ++ [last]) where
  ascending := gathers.ascending.insert _ _
  mem_iff := by
    intro record
    rw [mem_insert_iff gathers.ascending, gathers.recordOf_eq, gathers.mem_iff, gathered_concat]
    constructor
    · rintro (rfl | ⟨⟨⟨other, present, isContent⟩, isGathered⟩, different⟩)
      · exact ⟨⟨last, List.mem_append_right _ List.mem_cons_self, rfl⟩, (if_pos rfl).symm⟩
      · refine ⟨⟨other, List.mem_append_left _ present, isContent⟩, ?_⟩
        rw [if_neg (Ne.symm different)]
        exact isGathered
    · rintro ⟨⟨other, present, isContent⟩, isGathered⟩
      split at isGathered
      · rename_i same
        rw [same]
        exact Or.inl isGathered
      · rename_i different
        refine Or.inr ⟨⟨⟨other, ?_, isContent⟩, isGathered⟩, Ne.symm different⟩
        rcases List.mem_append.mp present with earlier | isLast
        · exact earlier
        · rw [List.mem_singleton.mp isLast] at isContent
          exact absurd isContent different

end Gathering

end ContentRecord

namespace Ledger

variable {α : Type} [Scalar α]

/-- The records of content gather what matches. -/
theorem gathers_contents
    (ledger : Ledger α)
    (query : ContentQuery) :
    ContentRecord.Gathers (ledger.contents query) (ledger.matching query) := by
  unfold contents
  induction ledger.matching query using List.reverseRecOn with
  | nil => exact ContentRecord.gathers_nil
  | append_singleton found last inductionHypothesis =>
      rw [List.foldl_concat]
      exact inductionHypothesis.insert last

end Ledger
end WorkMarket
