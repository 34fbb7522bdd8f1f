import WorkMarket.Market.Ledger

/-!
# The ledger shows the state of its outputs

The status of a script is kept beside its outputs.  As long as every status is
the one that the outputs show, recording a script changes no status that it
had, a new output is unspent, so its script is not redeemed, and only the
script that owns a spent output can become redeemed.  Every output that has an
owner is recorded with it.
-/

namespace WorkMarket
namespace ScriptRecord

/-- An unspent output keeps a script from being redeemed. -/
theorem statusOf_append_unspent
    (outputs : List OutputRecord)
    (output : OutputRecord)
    (unspent : output.spender = none) :
    statusOf (outputs ++ [output]) ≠ .redeemed := by
  have spent : (outputs ++ [output]).countP (fun output => output.spender.isSome) ≤
      outputs.length := by
    rw [List.countP_append]
    simpa [unspent] using List.countP_le_length
  unfold statusOf
  dsimp only
  split
  · simp
  · split
    · simp
    · split
      · rename_i everything
        rw [everything, List.length_append] at spent
        exact absurd spent (Nat.not_succ_le_self outputs.length)
      · simp

end ScriptRecord

namespace Ledger

variable {α : Type} {ledger : Ledger α}

/-- Whether every status is the one that the outputs show. -/
def IsCurrent
    (ledger : Ledger α) : Prop :=
  ∀ id entry, ledger.entries.get? id = some entry →
    entry.record.status = ScriptRecord.statusOf entry.record.outputs

theorem isCurrent_empty :
    (empty : Ledger α).IsCurrent := by
  intro id entry found
  contradiction

variable [Scalar α]

/-- Whether every output that has an owner is recorded with it. -/
def IsIndexed
    (ledger : Ledger α) : Prop :=
  ∀ outpoint id, ledger.owners.get? outpoint = some id →
    outpoint ∈ (ledger.get id).outputs.map OutputRecord.outpoint

/-- What is known about a script after its entry was put. -/
theorem get_put
    (entries : Keyed Digest (LedgerEntry α))
    (owners : Keyed Outpoint Digest)
    (id other : Digest)
    (entry : LedgerEntry α) :
    (Ledger.mk (entries.put id entry) owners).get other =
      if id = other then entry.record else (Ledger.mk entries owners).get other := by
  unfold get
  rw [Keyed.get?_put]
  split <;> rfl

theorem record_entryAt
    (ledger : Ledger α)
    (now : Instant)
    (id : Digest) :
    (ledger.entryAt now id).record = ledger.get id := by
  unfold entryAt get
  cases ledger.entries.get? id <;> rfl

/-- A refreshed entry keeps the ledger current. -/
theorem IsCurrent.put_refreshed
    (current : ledger.IsCurrent)
    (id : Digest)
    (script : Option LockingScript)
    (firstSeen : Instant)
    (record : ScriptRecord α)
    (owners : Keyed Outpoint Digest) :
    (Ledger.mk (ledger.entries.put id ⟨script, firstSeen, record.refreshed⟩) owners).IsCurrent := by
  intro other entry found
  rw [Keyed.get?_put] at found
  split at found
  · obtain rfl := Option.some.inj found
    rfl
  · exact current other entry found

theorem isIndexed_empty :
    (empty : Ledger α).IsIndexed := by
  intro outpoint id owned
  contradiction

/-- An output that has an owner has an entry there that holds it. -/
theorem IsIndexed.exists_entry
    (indexed : ledger.IsIndexed)
    {outpoint : Outpoint}
    {id : Digest}
    (owned : ledger.owners.get? outpoint = some id) :
    ∃ entry, ledger.entries.get? id = some entry ∧ ledger.get id = entry.record ∧
      ∃ output ∈ entry.record.outputs, output.outpoint = outpoint := by
  have present := indexed outpoint id owned
  cases found : ledger.entries.get? id with
  | none =>
      rw [get, found] at present
      contradiction
  | some entry =>
      have record : ledger.get id = entry.record := by
        rw [get, found]
        rfl
      rw [record] at present
      obtain ⟨output, inOutputs, rfl⟩ := List.mem_map.mp present
      exact ⟨entry, rfl, record, output, inOutputs, rfl⟩

/-- A ledger whose outputs stay with their owners stays indexed. -/
theorem IsIndexed.of_outpoints
    (indexed : ledger.IsIndexed)
    {next : Ledger α}
    (owners : next.owners = ledger.owners)
    (outpoints : ∀ id, (next.get id).outputs.map OutputRecord.outpoint =
      (ledger.get id).outputs.map OutputRecord.outpoint) :
    next.IsIndexed := by
  intro outpoint id owned
  rw [owners] at owned
  rw [outpoints]
  exact indexed outpoint id owned

theorem owners_put
    (ledger : Ledger α)
    (now : Instant)
    (script : LockingScript) :
    (ledger.put now script).2.owners = ledger.owners := by
  unfold put
  split <;> rfl

theorem IsCurrent.put
    (current : ledger.IsCurrent)
    (now : Instant)
    (script : LockingScript) :
    (ledger.put now script).2.IsCurrent := by
  unfold Ledger.put
  split
  · exact current.put_refreshed _ _ _ _ _
  · exact current

theorem outputs_put
    (ledger : Ledger α)
    (now : Instant)
    (script : LockingScript)
    (id : Digest) :
    ((ledger.put now script).2.get id).outputs = (ledger.get id).outputs := by
  unfold put
  split
  · dsimp only
    rw [get_put]
    split
    · rename_i same
      subst same
      rw [← ledger.record_entryAt now]
      rfl
    · rfl
  · rfl

theorem IsIndexed.put
    (indexed : ledger.IsIndexed)
    (now : Instant)
    (script : LockingScript) :
    (ledger.put now script).2.IsIndexed :=
  indexed.of_outpoints (ledger.owners_put now script) fun id => by rw [outputs_put]

/-- Recording a script redeems nothing. -/
theorem IsCurrent.redeemed_of_put
    (current : ledger.IsCurrent)
    {now : Instant}
    {script : LockingScript}
    {id : Digest}
    (redeemed : ((ledger.put now script).2.get id).status = .redeemed) :
    (ledger.get id).status = .redeemed := by
  unfold Ledger.put at redeemed
  split at redeemed
  · dsimp only at redeemed
    rw [get_put] at redeemed
    split at redeemed
    · rename_i same
      subst same
      change ScriptRecord.statusOf (ledger.entryAt now script.id).record.outputs = _ at redeemed
      unfold entryAt at redeemed
      unfold get
      cases found : ledger.entries.get? script.id with
      | none =>
          rw [found] at redeemed
          contradiction
      | some entry =>
          rw [found] at redeemed
          exact (current script.id entry found).trans redeemed
    · exact redeemed
  · exact redeemed

/-- An output is registered once it is new to its script; the script is not
redeemed then. -/
theorem register_cases
    (ledger : Ledger α)
    (now : Instant)
    (id : Digest)
    (value : UInt64)
    (outpoint : Outpoint) :
    ledger.register now id value outpoint = (false, ledger) ∨
      (ledger.register now id value outpoint).1 = true ∧
        ledger.owners.get? outpoint ≠ some id ∧
        (ledger.register now id value outpoint).2.owners = ledger.owners.put outpoint id ∧
        ((ledger.register now id value outpoint).2.get id).status ≠ .redeemed ∧
        ((ledger.register now id value outpoint).2.get id).outputs =
          (ledger.get id).outputs ++ [⟨value, outpoint, none⟩] ∧
        ∀ other, other ≠ id →
          (ledger.register now id value outpoint).2.get other = ledger.get other := by
  by_cases refused : !id.isValid || !outpoint.isValid || ledger.owners.get? outpoint = some id
  · exact Or.inl (if_pos refused)
  · apply Or.inr
    unfold register
    rw [if_neg refused]
    simp only [Bool.or_eq_true, decide_eq_true_eq, not_or] at refused
    refine ⟨rfl, refused.2, rfl, ?_, ?_, ?_⟩
    · dsimp only
      rw [get_put, if_pos rfl]
      exact ScriptRecord.statusOf_append_unspent _ _ rfl
    · dsimp only
      rw [get_put, if_pos rfl, record_entryAt]
      rfl
    · intro other different
      dsimp only
      rw [get_put, if_neg (Ne.symm different)]
      rfl

theorem IsCurrent.register
    (current : ledger.IsCurrent)
    (now : Instant)
    (id : Digest)
    (value : UInt64)
    (outpoint : Outpoint) :
    (ledger.register now id value outpoint).2.IsCurrent := by
  unfold Ledger.register
  split
  · exact current
  · exact current.put_refreshed _ _ _ _ _

/-- A new output is recorded with its owner. -/
theorem IsIndexed.register
    (indexed : ledger.IsIndexed)
    (now : Instant)
    (id : Digest)
    (value : UInt64)
    (outpoint : Outpoint) :
    (ledger.register now id value outpoint).2.IsIndexed := by
  rcases ledger.register_cases now id value outpoint with
    refused | ⟨_, _, owners, _, outputs, others⟩
  · rw [refused]
    exact indexed
  · intro other owner owned
    rw [owners, Keyed.get?_put] at owned
    by_cases same : owner = id
    · subst same
      rw [outputs, List.map_append, List.mem_append]
      split at owned
      · rename_i isNew
        exact Or.inr (List.mem_singleton.mpr isNew.symm)
      · exact Or.inl (indexed other owner owned)
    · rw [others owner same]
      split at owned
      · exact absurd (Option.some.inj owned).symm same
      · exact indexed other owner owned

theorem owners_redeem
    (ledger : Ledger α)
    (outpoint : Outpoint)
    (spender : Digest) :
    (ledger.redeem outpoint spender).2.owners = ledger.owners := by
  unfold redeem
  split
  · rfl
  · split <;> rfl

theorem IsCurrent.redeem
    (current : ledger.IsCurrent)
    (outpoint : Outpoint)
    (spender : Digest) :
    (ledger.redeem outpoint spender).2.IsCurrent := by
  unfold Ledger.redeem
  split
  · exact current
  · split
    · exact current
    · exact current.put_refreshed _ _ _ _ _

theorem outpoints_redeem
    (ledger : Ledger α)
    (outpoint : Outpoint)
    (spender : Digest)
    (id : Digest) :
    ((ledger.redeem outpoint spender).2.get id).outputs.map OutputRecord.outpoint =
      (ledger.get id).outputs.map OutputRecord.outpoint := by
  unfold redeem
  split
  · rfl
  · split
    · rfl
    · rename_i owner _ _ entry found
      dsimp only
      rw [get_put]
      split
      · rename_i same
        subst same
        have before : ledger.get owner = entry.record := by rw [get, found]; rfl
        rw [before]
        change (entry.record.outputs.map _).map OutputRecord.outpoint = _
        rw [List.map_map]
        apply List.map_congr_left
        intro output _
        change (if output.outpoint = outpoint then { output with spender := some spender }
          else output).outpoint = output.outpoint
        split <;> rfl
      · rfl

theorem IsIndexed.redeem
    (indexed : ledger.IsIndexed)
    (outpoint : Outpoint)
    (spender : Digest) :
    (ledger.redeem outpoint spender).2.IsIndexed :=
  indexed.of_outpoints (ledger.owners_redeem outpoint spender)
    (ledger.outpoints_redeem outpoint spender)

/-- Spending an output concerns its script, whose status is the answer. -/
theorem redeem_cases
    (ledger : Ledger α)
    (outpoint : Outpoint)
    (spender : Digest) :
    ledger.redeem outpoint spender = (none, ledger) ∨
      ∃ id status, (ledger.redeem outpoint spender).1 = some (id, status) ∧
        ((ledger.redeem outpoint spender).2.get id).status = status ∧
        ∀ other, other ≠ id → (ledger.redeem outpoint spender).2.get other = ledger.get other := by
  unfold redeem
  cases ledger.owners.get? outpoint with
  | none => exact Or.inl rfl
  | some id =>
      dsimp only
      cases ledger.entries.get? id with
      | none => exact Or.inl rfl
      | some entry =>
          refine Or.inr ⟨id, _, rfl, ?_, ?_⟩
          · rw [get_put, if_pos rfl]
          · intro other different
            rw [get_put, if_neg (Ne.symm different)]

end Ledger
end WorkMarket
