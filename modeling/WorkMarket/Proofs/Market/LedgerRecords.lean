import WorkMarket.Proofs.Market.KeyedEntries
import WorkMarket.Proofs.Market.OutputStatus
import WorkMarket.Proofs.Market.Promises

/-!
# What the ledger remembers of a chain

On a chain an output stays with the script that it was first recorded for, and
is recorded once.  Every entry is that of a script the chain shows, and says
what putting the script again would make it say.  So `spender?`, the
transaction that spent an output, changes only when the output is spent.
-/

namespace WorkMarket

/-- The difficulty that the ledger notes for a script. -/
def LockingScript.notedDifficulty
    (α : Type)
    [Scalar α]
    (script : LockingScript) :
    α :=
  match script.difficulty with
  | .ok difficulty => difficulty.view α
  | .error _ => Scalar.zero

/-- The record of an output after a transaction spent an output. -/
def OutputRecord.spentBy
    (outpoint : Outpoint)
    (spender : Digest)
    (record : OutputRecord) :
    OutputRecord :=
  if record.outpoint = outpoint then { record with spender := some spender } else record

namespace ScriptRecord

variable {α : Type} [Scalar α]

/-- What is up to date needs no update. -/
theorem refreshed_refreshed
    (record : ScriptRecord α) :
    record.refreshed.refreshed = record.refreshed := by
  unfold refreshed
  dsimp only
  split
  · rfl
  · rfl

end ScriptRecord

namespace LedgerEntry

variable {α : Type} [Scalar α]

/-- An entry after its script was put. -/
def withScript
    (entry : LedgerEntry α)
    (script : LockingScript) :
    LedgerEntry α :=
  { entry with
    script := some script
    record := { entry.record with difficulty := script.notedDifficulty α }.refreshed }

/-- An entry with other outputs. -/
def withOutputs
    (entry : LedgerEntry α)
    (outputs : List OutputRecord) :
    LedgerEntry α :=
  { entry with record := { entry.record with outputs := outputs }.refreshed }

/-- Whether an entry is that of a script and up to date. -/
structure IsOf
    (entry : LedgerEntry α)
    (script : LockingScript) : Prop where
  script_eq : entry.script = some script
  difficulty_eq : entry.record.difficulty = script.notedDifficulty α
  refreshed_eq : entry.record.refreshed = entry.record

variable {entry : LedgerEntry α} {script : LockingScript}

theorem isOf_withScript
    (entry : LedgerEntry α)
    (script : LockingScript) :
    (entry.withScript script).IsOf script :=
  ⟨rfl, rfl, ScriptRecord.refreshed_refreshed _⟩

theorem IsOf.withOutputs
    (isOf : entry.IsOf script)
    (outputs : List OutputRecord) :
    (entry.withOutputs outputs).IsOf script :=
  ⟨isOf.script_eq, isOf.difficulty_eq, ScriptRecord.refreshed_refreshed _⟩

/-- Putting the script of an entry again changes nothing. -/
theorem IsOf.withScript_eq
    (isOf : entry.IsOf script) :
    entry.withScript script = entry := by
  unfold LedgerEntry.withScript
  rw [← isOf.difficulty_eq, ← isOf.script_eq]
  exact congrArg (LedgerEntry.mk entry.script entry.firstSeen) isOf.refreshed_eq

/-- So does recording the outputs that are recorded. -/
theorem IsOf.withOutputs_eq
    (isOf : entry.IsOf script) :
    entry.withOutputs entry.record.outputs = entry :=
  congrArg (LedgerEntry.mk entry.script entry.firstSeen) isOf.refreshed_eq

end LedgerEntry

namespace Ledger

variable {α : Type} {ledger : Ledger α}

section Spenders

variable [Scalar α]

/-- The transaction that spent an output, as far as the ledger knows. -/
def spender?
    (ledger : Ledger α)
    (outpoint : Outpoint) :
    Option Digest :=
  (ledger.owners.get? outpoint).bind fun id =>
    ((ledger.get id).outputs.find? fun output => output.outpoint = outpoint).bind
      OutputRecord.spender

theorem spender?_of_owner
    {outpoint : Outpoint}
    {id : Digest}
    (owned : ledger.owners.get? outpoint = some id) :
    ledger.spender? outpoint =
      ((ledger.get id).outputs.find? fun output => output.outpoint = outpoint).bind
        OutputRecord.spender := by
  unfold spender?
  rw [owned]
  rfl

theorem spender?_of_unowned
    {outpoint : Outpoint}
    (unowned : ledger.owners.get? outpoint = none) :
    ledger.spender? outpoint = none := by
  unfold spender?
  rw [unowned]
  rfl

end Spenders

section Updates

variable [Scalar α]

theorem put_eq
    {script : LockingScript}
    (valid : script.isValid = true)
    (now : Instant) :
    ledger.put now script =
      (true,
        { ledger with
          entries := ledger.entries.put script.id
            ((ledger.entryAt now script.id).withScript script) }) := by
  unfold put
  rw [if_pos valid]
  rfl

theorem register_eq
    {now : Instant}
    {id : Digest}
    {value : UInt64}
    {outpoint : Outpoint}
    (fresh : (ledger.register now id value outpoint).1 = true) :
    ledger.register now id value outpoint =
      (true,
        ⟨ledger.entries.put id ((ledger.entryAt now id).withOutputs
            ((ledger.get id).outputs ++ [⟨value, outpoint, none⟩])),
          ledger.owners.put outpoint id⟩) := by
  unfold register at fresh ⊢
  split at fresh
  · contradiction
  · rename_i suitable
    rw [if_neg suitable, ← ledger.record_entryAt now]
    rfl

/-- What names nothing, or is recorded already, is refused. -/
theorem register_of_refused
    {now : Instant}
    {id : Digest}
    {value : UInt64}
    {outpoint : Outpoint}
    (refused : id.isValid = true ∧ outpoint.isValid = true →
      ledger.owners.get? outpoint = some id) :
    ledger.register now id value outpoint = (false, ledger) := by
  unfold register
  split
  · rfl
  · rename_i accepted
    simp only [Bool.or_eq_true, Bool.not_eq_true', decide_eq_true_eq, not_or,
      Bool.not_eq_false] at accepted
    exact absurd (refused accepted.1) accepted.2

theorem redeem_of_unowned
    {outpoint : Outpoint}
    (unowned : ledger.owners.get? outpoint = none)
    (spender : Digest) :
    ledger.redeem outpoint spender = (none, ledger) := by
  unfold redeem
  rw [unowned]

theorem redeem_of_owner
    {outpoint : Outpoint}
    {id : Digest}
    {entry : LedgerEntry α}
    (owned : ledger.owners.get? outpoint = some id)
    (found : ledger.entries.get? id = some entry)
    (spender : Digest) :
    ledger.redeem outpoint spender =
      (some (id, (entry.withOutputs
          (entry.record.outputs.map (OutputRecord.spentBy outpoint spender))).record.status),
        { ledger with
          entries := ledger.entries.put id (entry.withOutputs
            (entry.record.outputs.map (OutputRecord.spentBy outpoint spender))) }) := by
  unfold redeem
  rw [owned]
  dsimp only
  rw [found]
  rfl

end Updates

section Tracing

variable [Scalar α] {pays : LockingScript → Outpoint → Prop}

/-- What a ledger on a chain sees to. -/
structure IsTraced
    (pays : LockingScript → Outpoint → Prop)
    (ledger : Ledger α) : Prop where
  owned : ∀ outpoint id, ledger.owners.get? outpoint = some id →
    ∃ script, pays script outpoint ∧ script.id = id
  indexed : ledger.IsIndexed
  recorded : ∀ id, ∀ output ∈ (ledger.get id).outputs,
    ledger.owners.get? output.outpoint = some id
  single : ∀ id, ((ledger.get id).outputs.map OutputRecord.outpoint).Nodup
  filed : ∀ id entry, ledger.entries.get? id = some entry →
    ∃ script outpoint, pays script outpoint ∧ script.isValid = true ∧ script.id = id ∧
      entry.IsOf script

theorem isTraced_empty
    (pays : LockingScript → Outpoint → Prop) :
    (empty : Ledger α).IsTraced pays where
  owned := by simp [empty]
  indexed := isIndexed_empty
  recorded := by simp [empty, get, ScriptRecord.unknown]
  single := by simp [empty, get, ScriptRecord.unknown]
  filed := by simp [empty]

/-- Every status is the one that the outputs show. -/
theorem IsTraced.isCurrent
    (traced : ledger.IsTraced pays) :
    ledger.IsCurrent := by
  intro id entry found
  obtain ⟨_, _, _, _, _, isOf⟩ := traced.filed id entry found
  rw [← isOf.refreshed_eq]
  rfl

/-- An output without an owner is recorded nowhere. -/
theorem IsTraced.ne_of_unowned
    (traced : ledger.IsTraced pays)
    {outpoint : Outpoint}
    (unowned : ledger.owners.get? outpoint = none)
    {id : Digest}
    {output : OutputRecord}
    (present : output ∈ (ledger.get id).outputs) :
    output.outpoint ≠ outpoint := by
  intro same
  have owned := traced.recorded id output present
  rw [same, unowned] at owned
  contradiction

/-- Entries stay filed when one of a script of the chain is put. -/
theorem IsTraced.filed_put
    (traced : ledger.IsTraced pays)
    {id other : Digest}
    {entry found : LedgerEntry α}
    (filed : ∃ script outpoint, pays script outpoint ∧ script.isValid = true ∧
      script.id = id ∧ entry.IsOf script)
    (present : (ledger.entries.put id entry).get? other = some found) :
    ∃ script outpoint, pays script outpoint ∧ script.isValid = true ∧
      script.id = other ∧ found.IsOf script := by
  rw [Keyed.get?_put] at present
  split at present
  · rename_i same
    obtain rfl := Option.some.inj present
    exact same ▸ filed
  · exact traced.filed other found present

/-- An entry stays filed when its outputs change. -/
theorem IsTraced.filed_withOutputs
    (traced : ledger.IsTraced pays)
    {id : Digest}
    {entry : LedgerEntry α}
    (found : ledger.entries.get? id = some entry)
    (outputs : List OutputRecord) :
    ∃ script outpoint, pays script outpoint ∧ script.isValid = true ∧
      script.id = id ∧ (entry.withOutputs outputs).IsOf script := by
  obtain ⟨script, outpoint, paid, valid, named, isOf⟩ := traced.filed id entry found
  exact ⟨script, outpoint, paid, valid, named, isOf.withOutputs outputs⟩

section Put

variable {script : LockingScript} {outpoint : Outpoint}

theorem IsTraced.put
    (traced : ledger.IsTraced pays)
    (paid : pays script outpoint)
    (now : Instant) :
    (ledger.put now script).2.IsTraced pays where
  owned := by
    rw [owners_put]
    exact traced.owned
  indexed := traced.indexed.put now script
  recorded := by
    intro id output present
    rw [outputs_put] at present
    rw [owners_put]
    exact traced.recorded id output present
  single := by
    intro id
    rw [outputs_put]
    exact traced.single id
  filed := by
    intro id entry found
    by_cases valid : script.isValid = true
    · rw [put_eq valid] at found
      exact traced.filed_put
        ⟨script, outpoint, paid, valid, rfl, LedgerEntry.isOf_withScript _ script⟩ found
    · unfold Ledger.put at found
      rw [if_neg valid] at found
      exact traced.filed id entry found

theorem spender?_put
    (ledger : Ledger α)
    (now : Instant)
    (script : LockingScript)
    (outpoint : Outpoint) :
    (ledger.put now script).2.spender? outpoint = ledger.spender? outpoint := by
  unfold spender?
  simp only [owners_put, outputs_put]

/-- A script that was put has an entry. -/
theorem isSome_entry_put
    (ledger : Ledger α)
    (now : Instant)
    {script : LockingScript}
    (valid : script.isValid = true) :
    ((ledger.put now script).2.entries.get? script.id).isSome = true := by
  rw [put_eq valid]
  dsimp only
  rw [Keyed.get?_put, if_pos rfl]
  rfl

/-- Putting a script that has its entry changes nothing. -/
theorem put_of_isOf
    {entry : LedgerEntry α}
    (valid : script.isValid = true)
    (found : ledger.entries.get? script.id = some entry)
    (isOf : entry.IsOf script)
    (now : Instant) :
    (ledger.put now script).2 = ledger := by
  have known : ledger.entryAt now script.id = entry := by
    rw [entryAt, found]
    rfl
  rw [put_eq valid, known, isOf.withScript_eq, Keyed.put_of_get?_eq_some found]

end Put

section Register

variable {now : Instant} {script : LockingScript} {value : UInt64} {outpoint : Outpoint}

/-- On a chain an output that is new to its script is new. -/
theorem IsTraced.unowned_of_fresh
    (traced : ledger.IsTraced pays)
    (chain : IsChain pays)
    (paid : pays script outpoint)
    (fresh : ledger.owners.get? outpoint ≠ some script.id) :
    ledger.owners.get? outpoint = none := by
  cases owner : ledger.owners.get? outpoint with
  | none => rfl
  | some id =>
      obtain ⟨other, otherPaid, rfl⟩ := traced.owned outpoint id owner
      rw [owner, chain.oneScript script other outpoint paid otherPaid] at fresh
      contradiction

/-- Registering an output that is new records it with its script and nowhere
else. -/
theorem outputs_register
    (isNew : (ledger.register now script.id value outpoint).1 = true)
    (id : Digest) :
    ((ledger.register now script.id value outpoint).2.get id).outputs =
      if script.id = id then (ledger.get id).outputs ++ [⟨value, outpoint, none⟩]
      else (ledger.get id).outputs := by
  rcases ledger.register_cases now script.id value outpoint with
    refused | ⟨_, _, _, _, outputs, others⟩
  · rw [refused] at isNew
    contradiction
  · split
    · rename_i same
      subst same
      exact outputs
    · rename_i different
      rw [others id (Ne.symm different)]

theorem IsTraced.register
    (traced : ledger.IsTraced pays)
    (chain : IsChain pays)
    (paid : pays script outpoint)
    (known : (ledger.entries.get? script.id).isSome = true) :
    (ledger.register now script.id value outpoint).2.IsTraced pays := by
  rcases ledger.register_cases now script.id value outpoint with
    refused | ⟨isNew, fresh, owners, _, _, _⟩
  · rw [refused]
    exact traced
  · have unowned := traced.unowned_of_fresh chain paid fresh
    refine ⟨?_, traced.indexed.register now script.id value outpoint, ?_, ?_, ?_⟩
    · intro other id owned
      rw [owners, Keyed.get?_put] at owned
      split at owned
      · rename_i same
        subst same
        exact ⟨script, paid, Option.some.inj owned⟩
      · exact traced.owned other id owned
    · intro id output present
      rw [owners, Keyed.get?_put]
      rw [outputs_register isNew] at present
      have before (inLedger : output ∈ (ledger.get id).outputs) :
          (if outpoint = output.outpoint then some script.id
            else ledger.owners.get? output.outpoint) = some id := by
        rw [if_neg (traced.ne_of_unowned unowned inLedger).symm]
        exact traced.recorded id output inLedger
      split at present
      · rename_i same
        rcases List.mem_append.mp present with inLedger | isNew
        · exact before inLedger
        · rw [List.mem_singleton.mp isNew, if_pos rfl, same]
      · exact before present
    · intro id
      rw [outputs_register isNew]
      split
      · rw [List.map_append, List.map_singleton]
        refine List.nodup_append.mpr ⟨traced.single id, List.pairwise_singleton _ _, ?_⟩
        intro recorded present other isNew
        obtain ⟨output, inLedger, rfl⟩ := List.mem_map.mp present
        rw [List.mem_singleton.mp isNew]
        exact traced.ne_of_unowned unowned inLedger
      · exact traced.single id
    · intro id entry found
      obtain ⟨earlier, before⟩ := Option.isSome_iff_exists.mp known
      have entryAt : ledger.entryAt now script.id = earlier := by
        rw [Ledger.entryAt, before]
        rfl
      rw [register_eq isNew, entryAt] at found
      exact traced.filed_put (traced.filed_withOutputs before _) found

/-- A new output is unspent. -/
theorem IsTraced.spender?_register
    (traced : ledger.IsTraced pays)
    (chain : IsChain pays)
    (paid : pays script outpoint)
    (other : Outpoint) :
    (ledger.register now script.id value outpoint).2.spender? other = ledger.spender? other := by
  rcases ledger.register_cases now script.id value outpoint with
    refused | ⟨_, fresh, owners, _, outputs, others⟩
  · rw [refused]
  · have unowned := traced.unowned_of_fresh chain paid fresh
    by_cases same : outpoint = other
    · subst same
      have unrecorded : (ledger.get script.id).outputs.find?
          (fun output => output.outpoint = outpoint) = none := by
        rw [List.find?_eq_none]
        intro output present same
        exact traced.ne_of_unowned unowned present (of_decide_eq_true same)
      rw [spender?_of_unowned unowned,
        spender?_of_owner (by rw [owners, Keyed.get?_put, if_pos rfl]), outputs,
        List.find?_append, unrecorded]
      simp
    · unfold spender?
      rw [owners, Keyed.get?_put, if_neg same]
      congr 1
      funext id
      by_cases named : id = script.id
      · subst named
        rw [outputs, List.find?_append]
        simp [same]
      · rw [others id named]

end Register

section Redeem

variable {outpoint : Outpoint} {spender : Digest}

theorem outpoint_spentBy
    (outpoint : Outpoint)
    (spender : Digest)
    (record : OutputRecord) :
    (record.spentBy outpoint spender).outpoint = record.outpoint := by
  unfold OutputRecord.spentBy
  split <;> rfl

theorem spender_spentBy
    (outpoint : Outpoint)
    (spender : Digest)
    (record : OutputRecord) :
    (record.spentBy outpoint spender).spender =
      if record.outpoint = outpoint then some spender else record.spender := by
  unfold OutputRecord.spentBy
  split <;> rfl

/-- An unknown output is not spent, and what is spent is noted with its script. -/
theorem IsTraced.redeem_cases
    (traced : ledger.IsTraced pays)
    (outpoint : Outpoint)
    (spender : Digest) :
    ledger.owners.get? outpoint = none ∧ ledger.redeem outpoint spender = (none, ledger) ∨
      ∃ id entry, ledger.owners.get? outpoint = some id ∧
        ledger.entries.get? id = some entry ∧
        (ledger.redeem outpoint spender).1 =
          some (id, ((ledger.redeem outpoint spender).2.get id).status) ∧
        (ledger.redeem outpoint spender).2 =
          { ledger with
            entries := ledger.entries.put id (entry.withOutputs
              (entry.record.outputs.map (OutputRecord.spentBy outpoint spender))) } := by
  cases owned : ledger.owners.get? outpoint with
  | none =>
      unfold redeem
      rw [owned]
      exact Or.inl ⟨rfl, rfl⟩
  | some id =>
      obtain ⟨entry, found, _⟩ := traced.indexed.exists_entry owned
      refine Or.inr ⟨id, entry, rfl, found, ?_, ?_⟩
      · rw [redeem_of_owner owned found]
        dsimp only
        rw [get_put, if_pos rfl]
      · rw [redeem_of_owner owned found]

theorem IsTraced.redeem
    (traced : ledger.IsTraced pays)
    (outpoint : Outpoint)
    (spender : Digest) :
    (ledger.redeem outpoint spender).2.IsTraced pays where
  owned := by
    rw [owners_redeem]
    exact traced.owned
  indexed := traced.indexed.redeem outpoint spender
  recorded := by
    intro id output present
    have listed := List.mem_map_of_mem (f := OutputRecord.outpoint) present
    rw [outpoints_redeem] at listed
    obtain ⟨earlier, inLedger, same⟩ := List.mem_map.mp listed
    rw [owners_redeem, ← same]
    exact traced.recorded id earlier inLedger
  single := by
    intro id
    rw [outpoints_redeem]
    exact traced.single id
  filed := by
    intro id entry found
    rcases traced.redeem_cases outpoint spender with
      ⟨_, unknown⟩ | ⟨owner, earlier, _, before, _, spent⟩
    · rw [unknown] at found
      exact traced.filed id entry found
    · rw [spent] at found
      exact traced.filed_put (traced.filed_withOutputs before _) found

theorem find?_spentBy
    (outpoint other : Outpoint)
    (spender : Digest)
    (outputs : List OutputRecord) :
    (outputs.map (OutputRecord.spentBy outpoint spender)).find?
        (fun output => output.outpoint = other) =
      (outputs.find? fun output => output.outpoint = other).map
        (OutputRecord.spentBy outpoint spender) := by
  rw [List.find?_map]
  congr 2
  funext output
  simp only [Function.comp_apply, outpoint_spentBy]

/-- Spending concerns the output that is spent, if it is known. -/
theorem IsTraced.spender?_redeem
    (traced : ledger.IsTraced pays)
    (outpoint other : Outpoint)
    (spender : Digest) :
    (ledger.redeem outpoint spender).2.spender? other =
      if outpoint = other ∧ (ledger.owners.get? outpoint).isSome = true then some spender
      else ledger.spender? other := by
  rcases traced.redeem_cases outpoint spender with
    ⟨unowned, unknown⟩ | ⟨id, entry, owned, found, _, spent⟩
  · rw [unknown, unowned, if_neg (by simp)]
  · have record : ledger.get id = entry.record := by
      rw [get, found]
      rfl
    rw [owned, spent]
    unfold spender?
    dsimp only
    simp only [get_put, Option.isSome_some, and_true]
    cases owner : ledger.owners.get? other with
    | none =>
        rw [if_neg (by rintro rfl; rw [owned] at owner; contradiction)]
        rfl
    | some name =>
        simp only [Option.bind_some]
        split
        · rename_i same
          subst same
          change (List.find? _ (List.map (OutputRecord.spentBy outpoint spender) _)).bind _ = _
          rw [find?_spentBy, Option.bind_map, ← record]
          obtain ⟨_, _, isRecord, output, present, isOutput⟩ := traced.indexed.exists_entry owner
          cases first : (ledger.get id).outputs.find? fun output => output.outpoint = other with
          | none =>
              rw [isRecord] at first
              exact absurd (by simpa using isOutput) (List.find?_eq_none.mp first output present)
          | some output =>
              have isOther : output.outpoint = other := by simpa using List.find?_some first
              change (output.spentBy outpoint spender).spender =
                if outpoint = other then some spender else output.spender
              rw [spender_spentBy, isOther]
              split
              · rename_i same
                rw [if_pos same.symm]
              · rename_i different
                rw [if_neg (Ne.symm different)]
        · rename_i different
          rw [if_neg]
          rintro rfl
          rw [owned] at owner
          exact different (Option.some.inj owner)

/-- Spending an output again that the same transaction spent changes nothing. -/
theorem IsTraced.redeem_of_spent
    (traced : ledger.IsTraced pays)
    (spent : ledger.spender? outpoint = some spender) :
    ∃ id, ledger.owners.get? outpoint = some id ∧
      ledger.redeem outpoint spender = (some (id, (ledger.get id).status), ledger) := by
  cases owned : ledger.owners.get? outpoint with
  | none =>
      rw [spender?_of_unowned owned] at spent
      contradiction
  | some id =>
      obtain ⟨entry, found, record, _⟩ := traced.indexed.exists_entry owned
      obtain ⟨_, _, _, _, _, isOf⟩ := traced.filed id entry found
      rw [spender?_of_owner owned, record] at spent
      obtain ⟨first, isFirst, isSpender⟩ := Option.bind_eq_some_iff.mp spent
      have single := traced.single id
      rw [record] at single
      -- Every record of the output is the one that shows the spender.
      have marked : entry.record.outputs.map (OutputRecord.spentBy outpoint spender) =
          entry.record.outputs := by
        rw [List.map_congr_left (g := fun output => output), List.map_id']
        intro output present
        unfold OutputRecord.spentBy
        split
        · rename_i isOutput
          have same := (Keyed.find?_eq_some_iff_of_nodup single outpoint output).mpr
            ⟨present, isOutput⟩
          rw [isFirst] at same
          rw [← Option.some.inj same, ← isSpender]
        · rfl
      refine ⟨id, rfl, ?_⟩
      rw [redeem_of_owner owned found, marked, isOf.withOutputs_eq,
        Keyed.put_of_get?_eq_some found, record]

end Redeem

end Tracing

section Memory

/-- Whether a script and its output were entered, as far as they can be. -/
def Knows
    (ledger : Ledger α)
    (script : LockingScript)
    (outpoint : Outpoint) : Prop :=
  script.isValid = true → outpoint.isValid = true →
    (ledger.entries.get? script.id).isSome = true ∧
      (script.id.isValid = true → ledger.owners.get? outpoint = some script.id)

variable [Scalar α]

/-- An entry that was made stays. -/
theorem isSome_entry_put_of_isSome
    {id : Digest}
    (known : (ledger.entries.get? id).isSome = true)
    (now : Instant)
    (script : LockingScript) :
    ((ledger.put now script).2.entries.get? id).isSome = true := by
  by_cases valid : script.isValid = true
  · rw [put_eq valid]
    exact Keyed.isSome_get?_put known _ _
  · unfold put
    rw [if_neg valid]
    exact known

theorem isSome_entry_register
    {id owner : Digest}
    (known : (ledger.entries.get? id).isSome = true)
    (now : Instant)
    (value : UInt64)
    (outpoint : Outpoint) :
    ((ledger.register now owner value outpoint).2.entries.get? id).isSome = true := by
  cases fresh : (ledger.register now owner value outpoint).1 with
  | true =>
      rw [register_eq fresh]
      exact Keyed.isSome_get?_put known _ _
  | false =>
      rcases ledger.register_cases now owner value outpoint with refused | ⟨isNew, _⟩
      · rw [refused]
        exact known
      · rw [isNew] at fresh
        contradiction

theorem isSome_entry_redeem
    {id : Digest}
    (known : (ledger.entries.get? id).isSome = true)
    (outpoint : Outpoint)
    (spender : Digest) :
    ((ledger.redeem outpoint spender).2.entries.get? id).isSome = true := by
  unfold redeem
  split
  · exact known
  · split
    · exact known
    · exact Keyed.isSome_get?_put known _ _

end Memory

end Ledger
end WorkMarket
