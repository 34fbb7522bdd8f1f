import WorkMarket.Proofs.Market.LedgerHistory

/-!
# The ledger says what its history says

The names, the outputs and the statuses of a ledger are kept apart from each
other and brought up to date by each operation.  As long as every output is
registered under one name, they fit together and with the history: `Keeps` is
what an operation preserves, `Reflects` what can be read off the ledger, and
`run_reflects` says it of every history.
-/

namespace WorkMarket
namespace ScriptRecord

variable {outputs : List OutputRecord}

/-- The status that outputs show, case by case. -/
theorem statusOf_cases
    (outputs : List OutputRecord) :
    (outputs = [] ∧ statusOf outputs = .unspent) ∨
      (outputs ≠ [] ∧ (∀ output ∈ outputs, output.spender = none) ∧
        statusOf outputs = .unredeemed) ∨
      (outputs ≠ [] ∧ (∀ output ∈ outputs, output.spender ≠ none) ∧
        statusOf outputs = .redeemed) ∨
      ((∃ output ∈ outputs, output.spender = none) ∧
        (∃ output ∈ outputs, output.spender ≠ none) ∧
        statusOf outputs = .partiallyRedeemed) := by
  have noneSpent : outputs.countP (fun output => output.spender.isSome) = 0 ↔
      ∀ output ∈ outputs, output.spender = none := by
    simp [List.countP_eq_zero]
  have allSpent : outputs.countP (fun output => output.spender.isSome) = outputs.length ↔
      ∀ output ∈ outputs, output.spender ≠ none := by
    simp [List.countP_eq_length, Option.isSome_iff_ne_none]
  unfold statusOf
  dsimp only
  split
  · rename_i isEmpty
    exact Or.inl ⟨List.isEmpty_iff.mp isEmpty, rfl⟩
  · rename_i nonempty
    rw [List.isEmpty_iff] at nonempty
    split
    · rename_i unspent
      exact Or.inr (Or.inl ⟨nonempty, noneSpent.mp unspent, rfl⟩)
    · rename_i someSpent
      split
      · rename_i spent
        exact Or.inr (Or.inr (Or.inl ⟨nonempty, allSpent.mp spent, rfl⟩))
      · rename_i someUnspent
        rw [noneSpent] at someSpent
        rw [allSpent] at someUnspent
        push Not at someSpent someUnspent
        exact Or.inr (Or.inr (Or.inr ⟨someUnspent, someSpent, rfl⟩))

theorem statusOf_ne_unknown :
    statusOf outputs ≠ .unknown := by
  rcases statusOf_cases outputs with ⟨_, shown⟩ | ⟨_, _, shown⟩ | ⟨_, _, shown⟩ | ⟨_, _, shown⟩ <;>
    simp [shown]

theorem statusOf_eq_unspent_iff :
    statusOf outputs = .unspent ↔ outputs = [] := by
  rcases statusOf_cases outputs with
    ⟨isEmpty, shown⟩ | ⟨nonempty, -, shown⟩ | ⟨nonempty, -, shown⟩ |
      ⟨⟨output, present, -⟩, -, shown⟩
  · exact iff_of_true shown isEmpty
  · exact iff_of_false (by simp [shown]) nonempty
  · exact iff_of_false (by simp [shown]) nonempty
  · exact iff_of_false (by simp [shown]) (List.ne_nil_of_mem present)

theorem statusOf_eq_unredeemed_iff :
    statusOf outputs = .unredeemed ↔
      outputs ≠ [] ∧ ∀ output ∈ outputs, output.spender = none := by
  rcases statusOf_cases outputs with
    ⟨isEmpty, shown⟩ | ⟨nonempty, unspent, shown⟩ | ⟨nonempty, spent, shown⟩ |
      ⟨-, ⟨output, present, spent⟩, shown⟩
  · exact iff_of_false (by simp [shown]) fun unredeemed => unredeemed.1 isEmpty
  · exact iff_of_true shown ⟨nonempty, unspent⟩
  · obtain ⟨output, present⟩ := List.exists_mem_of_ne_nil outputs nonempty
    exact iff_of_false (by simp [shown]) fun unredeemed =>
      spent output present (unredeemed.2 output present)
  · exact iff_of_false (by simp [shown]) fun unredeemed => spent (unredeemed.2 output present)

theorem statusOf_eq_redeemed_iff :
    statusOf outputs = .redeemed ↔
      outputs ≠ [] ∧ ∀ output ∈ outputs, output.spender ≠ none := by
  rcases statusOf_cases outputs with
    ⟨isEmpty, shown⟩ | ⟨nonempty, unspent, shown⟩ | ⟨nonempty, spent, shown⟩ |
      ⟨⟨output, present, unspent⟩, -, shown⟩
  · exact iff_of_false (by simp [shown]) fun redeemed => redeemed.1 isEmpty
  · obtain ⟨output, present⟩ := List.exists_mem_of_ne_nil outputs nonempty
    exact iff_of_false (by simp [shown]) fun redeemed =>
      redeemed.2 output present (unspent output present)
  · exact iff_of_true shown ⟨nonempty, spent⟩
  · exact iff_of_false (by simp [shown]) fun redeemed => redeemed.2 output present unspent

theorem statusOf_eq_partiallyRedeemed_iff :
    statusOf outputs = .partiallyRedeemed ↔
      (∃ output ∈ outputs, output.spender = none) ∧
        ∃ output ∈ outputs, output.spender ≠ none := by
  rcases statusOf_cases outputs with
    ⟨isEmpty, shown⟩ | ⟨-, unspent, shown⟩ | ⟨-, spent, shown⟩ | ⟨someUnspent, someSpent, shown⟩
  · exact iff_of_false (by simp [shown]) fun ⟨⟨_, present, _⟩, _⟩ =>
      List.ne_nil_of_mem present isEmpty
  · exact iff_of_false (by simp [shown]) fun ⟨_, output, present, spent⟩ =>
      spent (unspent output present)
  · exact iff_of_false (by simp [shown]) fun ⟨⟨output, present, unspent⟩, _⟩ =>
      spent output present unspent
  · exact iff_of_true shown ⟨someUnspent, someSpent⟩

end ScriptRecord

namespace Ledger

section Runs

variable {α : Type} [Scalar α]

/-- The ledger after something has happened. -/
def step
    (ledger : Ledger α) :
    Operation → Ledger α
  | .put now script => (ledger.put now script).2
  | .register now id value outpoint => (ledger.register now id value outpoint).2
  | .redeem outpoint spender => (ledger.redeem outpoint spender).2

/-- The ledger after a history. -/
def run
    (ledger : Ledger α)
    (history : List Operation) :
    Ledger α :=
  history.foldl step ledger

/-- What a ledger keeps of its history. -/
structure Keeps
    (ledger : Ledger α)
    (history : List Operation) : Prop where
  owners : ∀ outpoint id,
    ledger.owners.get? outpoint = some id ↔ outpoint ∈ outpointsOf history id
  outputs : ∀ id,
    (ledger.get id).outputs = (outpointsOf history id).eraseDups.map (recorded history)
  entries : ∀ id, ledger.entries.contains id = true ↔ id ∈ entered history
  current : ledger.IsCurrent

theorem keeps_empty :
    (empty : Ledger α).Keeps [] where
  owners := by simp [empty, outpointsOf, registrations]
  outputs := by simp [empty, get, ScriptRecord.unknown, outpointsOf, registrations]
  entries := by simp [empty, entered, Keyed.contains]
  current := isCurrent_empty

variable {ledger : Ledger α} {history : List Operation}

/-- What says nothing of the outputs of a name leaves what is recorded there. -/
theorem map_recorded_concat
    {operation : Operation}
    {id : Digest}
    (silent : ∀ outpoint ∈ outpointsOf history id, operation.spender? outpoint = none) :
    (outpointsOf history id).eraseDups.map (recorded (history ++ [operation])) =
      (outpointsOf history id).eraseDups.map (recorded history) := by
  apply List.map_congr_left
  intro outpoint present
  have listed := List.mem_eraseDups.mp present
  rw [recorded_concat (isRegistered_of_mem listed), silent outpoint listed]
  rfl

/-- An output has one name. -/
theorem Keeps.eq_of_mem
    (keeps : ledger.Keeps history)
    {outpoint : Outpoint}
    {id other : Digest}
    (listed : outpoint ∈ outpointsOf history id)
    (otherListed : outpoint ∈ outpointsOf history other) :
    id = other :=
  Option.some.inj (((keeps.owners outpoint id).mpr listed).symm.trans
    ((keeps.owners outpoint other).mpr otherListed))

/-- A name that has an output has an entry. -/
theorem Keeps.exists_entry
    (keeps : ledger.Keeps history)
    {outpoint : Outpoint}
    {id : Digest}
    (owned : ledger.owners.get? outpoint = some id) :
    ∃ entry, ledger.entries.get? id = some entry :=
  Option.isSome_iff_exists.mp ((keeps.entries id).mpr
    (mem_entered_of_mem_outpointsOf ((keeps.owners outpoint id).mp owned)))

/-- What neither enters a name nor tells of an output changes nothing. -/
theorem Keeps.concat_of_idle
    (keeps : ledger.Keeps history)
    {operation : Operation}
    (registration : operation.registration? = none)
    (name : operation.entered? = none)
    (silent : ∀ id, ∀ outpoint ∈ outpointsOf history id, operation.spender? outpoint = none) :
    ledger.Keeps (history ++ [operation]) where
  owners := by
    intro outpoint id
    rw [outpointsOf_concat_of_none registration]
    exact keeps.owners outpoint id
  outputs := by
    intro id
    rw [outpointsOf_concat_of_none registration, map_recorded_concat (silent id)]
    exact keeps.outputs id
  entries := by
    intro id
    simp [mem_entered_concat_iff, name, keeps.entries id]
  current := keeps.current

theorem Keeps.put
    (keeps : ledger.Keeps history)
    (now : Instant)
    (script : LockingScript) :
    (ledger.put now script).2.Keeps (history ++ [.put now script]) := by
  by_cases valid : script.isValid = true
  · refine ⟨?_, ?_, ?_, keeps.current.put now script⟩
    · intro outpoint id
      rw [owners_put, outpointsOf_concat_of_none rfl]
      exact keeps.owners outpoint id
    · intro id
      rw [outputs_put, outpointsOf_concat_of_none rfl, map_recorded_concat fun _ _ => rfl]
      exact keeps.outputs id
    · intro id
      rw [put_eq valid, mem_entered_concat_iff, ← keeps.entries]
      simp [Keyed.contains_put, Operation.entered?, valid, or_comm]
  · unfold Ledger.put
    rw [if_neg valid]
    exact keeps.concat_of_idle rfl (if_neg valid) fun _ _ _ => rfl

/-- Registering an output again under its name changes nothing. -/
theorem Keeps.register_known
    (keeps : ledger.Keeps history)
    (now : Instant)
    {id : Digest}
    (value : UInt64)
    {outpoint : Outpoint}
    (valid : id.isValid = true ∧ outpoint.isValid = true)
    (known : ledger.owners.get? outpoint = some id) :
    ledger.Keeps (history ++ [.register now id value outpoint]) := by
  have listed := (keeps.owners outpoint id).mp known
  have registers : (Operation.register now id value outpoint).registration? =
      some ⟨id, value, outpoint⟩ := if_pos valid
  have enters : (Operation.register now id value outpoint).entered? = some id := if_pos valid
  refine ⟨?_, ?_, ?_, keeps.current⟩
  · intro other owner
    rw [keeps.owners, mem_outpointsOf_concat_iff registers]
    refine ⟨Or.inl, ?_⟩
    rintro (present | ⟨rfl, rfl⟩)
    · exact present
    · exact listed
  · intro owner
    rw [keeps.outputs, outpointsOf_concat_of_some registers]
    split
    · rename_i same
      subst same
      rw [eraseDups_concat, if_pos listed, List.append_nil, map_recorded_concat fun _ _ => rfl]
    · rw [List.append_nil, map_recorded_concat fun _ _ => rfl]
  · intro owner
    rw [keeps.entries, mem_entered_concat_iff, enters]
    refine ⟨Or.inl, ?_⟩
    rintro (present | isNew)
    · exact present
    · rw [← Option.some.inj isNew]
      exact mem_entered_of_mem_outpointsOf listed

/-- Registering an output that no name has adds it to what its name lists. -/
theorem Keeps.register_new
    (keeps : ledger.Keeps history)
    (now : Instant)
    {id : Digest}
    (value : UInt64)
    {outpoint : Outpoint}
    (valid : id.isValid = true ∧ outpoint.isValid = true)
    (isNew : ¬IsRegistered history outpoint) :
    (ledger.register now id value outpoint).2.Keeps
      (history ++ [.register now id value outpoint]) := by
  have registers : (Operation.register now id value outpoint).registration? =
      some ⟨id, value, outpoint⟩ := if_pos valid
  have enters : (Operation.register now id value outpoint).entered? = some id := if_pos valid
  have unlisted (owner : Digest) : outpoint ∉ outpointsOf history owner :=
    fun listed => isNew (isRegistered_of_mem listed)
  have unowned : ledger.owners.get? outpoint ≠ some id :=
    mt (keeps.owners outpoint id).mp (unlisted id)
  have accepted : (ledger.register now id value outpoint).1 = true := by
    unfold Ledger.register
    rw [if_neg (by simp [valid, unowned])]
  rw [register_eq accepted]
  refine ⟨?_, ?_, ?_, ?_⟩
  · intro other owner
    dsimp only
    rw [Keyed.get?_put, mem_outpointsOf_concat_iff registers]
    split
    · rename_i same
      subst same
      simp [unlisted owner]
    · rename_i different
      simp [keeps.owners, different]
  · intro owner
    rw [get_put, outpointsOf_concat_of_some registers]
    split
    · rename_i same
      subst same
      dsimp only
      rw [eraseDups_concat, if_neg (unlisted id), List.map_append,
        map_recorded_concat fun _ _ => rfl, ← keeps.outputs, List.map_singleton,
        recorded_concat_of_new registers isNew]
      rfl
    · rename_i different
      rw [List.append_nil, map_recorded_concat fun _ _ => rfl]
      exact keeps.outputs owner
  · intro owner
    rw [mem_entered_concat_iff, enters, ← keeps.entries]
    simp [Keyed.contains_put, or_comm]
  · have current := keeps.current.register now id value outpoint
    rwa [register_eq accepted] at current

theorem Keeps.register
    (keeps : ledger.Keeps history)
    (now : Instant)
    (id : Digest)
    (value : UInt64)
    (outpoint : Outpoint)
    (oneOwner : HasOneOwner (history ++ [.register now id value outpoint])) :
    (ledger.register now id value outpoint).2.Keeps
      (history ++ [.register now id value outpoint]) := by
  by_cases valid : id.isValid = true ∧ outpoint.isValid = true
  · by_cases isRegistered : IsRegistered history outpoint
    · obtain ⟨earlier, present, isOutput⟩ := isRegistered
      -- The earlier registration was under this name, so the index holds it.
      have same : earlier.id = id := by
        refine oneOwner earlier ?_ ⟨id, value, outpoint⟩ ?_ isOutput <;>
          rw [registrations_concat, List.mem_append]
        · exact Or.inl present
        · exact Or.inr (by simp [Operation.registration?, valid])
      have known : ledger.owners.get? outpoint = some id :=
        (keeps.owners outpoint id).mpr
          (mem_outpointsOf_iff.mpr ⟨earlier.value, by rwa [← same, ← isOutput]⟩)
      rw [register_of_refused fun _ => known]
      exact keeps.register_known now value valid known
    · exact keeps.register_new now value valid isRegistered
  · rw [register_of_refused fun isValid => absurd isValid valid]
    exact keeps.concat_of_idle (if_neg valid) (if_neg valid) fun _ _ _ => rfl

theorem Keeps.redeem
    (keeps : ledger.Keeps history)
    (outpoint : Outpoint)
    (spender : Digest) :
    (ledger.redeem outpoint spender).2.Keeps (history ++ [.redeem outpoint spender]) := by
  cases owner : ledger.owners.get? outpoint with
  | none =>
      rw [redeem_of_unowned owner]
      refine keeps.concat_of_idle rfl rfl fun id other listed => if_neg ?_
      rintro rfl
      rw [(keeps.owners outpoint id).mpr listed] at owner
      contradiction
  | some id =>
      have listed := (keeps.owners outpoint id).mp owner
      obtain ⟨entry, found⟩ := keeps.exists_entry owner
      have record : ledger.get id = entry.record := by
        rw [get, found]
        rfl
      have current := keeps.current.redeem outpoint spender
      rw [redeem_of_owner owner found] at current ⊢
      refine ⟨?_, ?_, ?_, current⟩
      · intro other name
        rw [outpointsOf_concat_of_none rfl]
        exact keeps.owners other name
      · intro name
        rw [get_put, outpointsOf_concat_of_none rfl]
        split
        · rename_i same
          subst same
          change entry.record.outputs.map (OutputRecord.spentBy outpoint spender) = _
          rw [← record, keeps.outputs, List.map_map]
          refine List.map_congr_left fun other present => ?_
          exact (recorded_concat_redeem
            (isRegistered_of_mem (List.mem_eraseDups.mp present)) outpoint spender).symm
        · rename_i different
          -- No other name lists the output, so nothing recorded there changes.
          rw [map_recorded_concat]
          · exact keeps.outputs name
          · intro other otherListed
            rw [Operation.spender?_redeem, if_neg]
            rintro rfl
            exact different (keeps.eq_of_mem listed otherListed)
      · intro name
        rw [mem_entered_concat_iff, ← keeps.entries, Keyed.contains_put]
        have known : ledger.entries.contains id = true := by
          unfold Keyed.contains
          rw [found]
          rfl
        by_cases same : id = name
        · simp [← same, known]
        · simp [same, Operation.entered?]

/-- One operation after another, a ledger keeps its history. -/
theorem keeps_run
    (history : List Operation)
    (oneOwner : HasOneOwner history) :
    ((empty : Ledger α).run history).Keeps history := by
  induction history using List.reverseRecOn with
  | nil => exact keeps_empty
  | append_singleton history operation inductionHypothesis =>
      have before := inductionHypothesis oneOwner.of_concat
      unfold run at before ⊢
      rw [List.foldl_concat]
      cases operation with
      | put now script => exact before.put now script
      | register now id value outpoint => exact before.register now id value outpoint oneOwner
      | redeem outpoint spender => exact before.redeem outpoint spender

section Reflection

/-- Whether an operation is about a name. -/
def Operation.Concerns
    (history : List Operation)
    (id : Digest) :
    Operation → Prop
  | .put _ script => script.id = id
  | .register _ owner _ _ => owner = id
  | .redeem outpoint _ => outpoint ∈ outpointsOf history id

/-- What can be read off a ledger about its history. -/
structure Reflects
    (ledger : Ledger α)
    (history : List Operation) : Prop where
  /-- An output is found under the name that lists it. -/
  indexed : ∀ outpoint id, ledger.owners.get? outpoint = some id ↔
    outpoint ∈ (ledger.get id).outputs.map OutputRecord.outpoint
  /-- It is listed once. -/
  once : ∀ id, ((ledger.get id).outputs.map OutputRecord.outpoint).Nodup
  /-- The outputs stand in the order in which they were registered, with their
  first values. -/
  outputs : ∀ id,
    (ledger.get id).outputs = (outpointsOf history id).eraseDups.map (recorded history)
  /-- An output is spent by whatever spent it last since it was registered. -/
  spent : ∀ id, ∀ output ∈ (ledger.get id).outputs, ∀ spender,
    output.spender = some spender ↔
      ∃ before after, history = before ++ .redeem output.outpoint spender :: after ∧
        output.outpoint ∈ outpointsOf before id ∧
        ∀ operation ∈ after, operation.spender? output.outpoint = none
  unknown_iff : ∀ id, (ledger.get id).status = .unknown ↔ id ∉ entered history
  unspent_iff : ∀ id, (ledger.get id).status = .unspent ↔
    id ∈ entered history ∧ (ledger.get id).outputs = []
  unredeemed_iff : ∀ id, (ledger.get id).status = .unredeemed ↔
    (ledger.get id).outputs ≠ [] ∧ ∀ output ∈ (ledger.get id).outputs, output.spender = none
  redeemed_iff : ∀ id, (ledger.get id).status = .redeemed ↔
    (ledger.get id).outputs ≠ [] ∧ ∀ output ∈ (ledger.get id).outputs, output.spender ≠ none
  partiallyRedeemed_iff : ∀ id, (ledger.get id).status = .partiallyRedeemed ↔
    (∃ output ∈ (ledger.get id).outputs, output.spender = none) ∧
      ∃ output ∈ (ledger.get id).outputs, output.spender ≠ none
  /-- Spending an output is answered if the output is registered, with its name
  and the status that the name has then. -/
  answered : ∀ outpoint spender id status,
    (ledger.redeem outpoint spender).1 = some (id, status) ↔
      outpoint ∈ outpointsOf history id ∧
        status = ((ledger.redeem outpoint spender).2.get id).status
  /-- What is not about a name leaves its entry. -/
  framed : ∀ operation id, ¬operation.Concerns history id →
    (ledger.step operation).entries.get? id = ledger.entries.get? id

/-- A name that is not entered is unknown, any other shows the state of its
outputs. -/
theorem Keeps.status_eq
    (keeps : ledger.Keeps history)
    (id : Digest) :
    (ledger.get id).status =
      if id ∈ entered history then ScriptRecord.statusOf (ledger.get id).outputs
      else .unknown := by
  simp only [← keeps.entries, Keyed.contains]
  cases found : ledger.entries.get? id with
  | none =>
      rw [get, found]
      rfl
  | some entry =>
      rw [get, found]
      exact keeps.current id entry found

/-- What a name lists is entered under it. -/
theorem Keeps.mem_entered_of_mem
    (keeps : ledger.Keeps history)
    {id : Digest}
    {output : OutputRecord}
    (present : output ∈ (ledger.get id).outputs) :
    id ∈ entered history := by
  rw [keeps.outputs] at present
  obtain ⟨outpoint, listed, -⟩ := List.mem_map.mp present
  exact mem_entered_of_mem_outpointsOf (List.mem_eraseDups.mp listed)

theorem Keeps.outpoints_eq
    (keeps : ledger.Keeps history)
    (id : Digest) :
    (ledger.get id).outputs.map OutputRecord.outpoint = (outpointsOf history id).eraseDups := by
  rw [keeps.outputs, List.map_map]
  exact List.map_id _

/-- A status other than being unspent is that of a name with outputs. -/
theorem Keeps.status_eq_iff
    (keeps : ledger.Keeps history)
    (id : Digest)
    {status : OutputStatus}
    (isKnown : status ≠ .unknown)
    (isPaid : status ≠ .unspent) :
    (ledger.get id).status = status ↔
      ScriptRecord.statusOf (ledger.get id).outputs = status := by
  rw [keeps.status_eq]
  split
  · rfl
  · rename_i absent
    have noOutputs : (ledger.get id).outputs = [] :=
      List.eq_nil_iff_forall_not_mem.mpr fun output present =>
        absent (keeps.mem_entered_of_mem present)
    rw [ScriptRecord.statusOf_eq_unspent_iff.mpr noOutputs]
    exact iff_of_false (Ne.symm isKnown) (Ne.symm isPaid)

theorem Keeps.answered_iff
    (keeps : ledger.Keeps history)
    (outpoint : Outpoint)
    (spender : Digest)
    (id : Digest)
    (status : OutputStatus) :
    (ledger.redeem outpoint spender).1 = some (id, status) ↔
      outpoint ∈ outpointsOf history id ∧
        status = ((ledger.redeem outpoint spender).2.get id).status := by
  rw [← keeps.owners]
  cases owner : ledger.owners.get? outpoint with
  | none =>
      simp [redeem_of_unowned owner]
  | some name =>
      obtain ⟨entry, found⟩ := keeps.exists_entry owner
      rw [redeem_of_owner owner found]
      dsimp only
      rw [get_put]
      constructor
      · intro answer
        obtain ⟨rfl, rfl⟩ := Prod.mk.inj (Option.some.inj answer)
        exact ⟨rfl, by rw [if_pos rfl]⟩
      · rintro ⟨same, rfl⟩
        rw [if_pos (Option.some.inj same), Option.some.inj same]

theorem Keeps.framed
    (keeps : ledger.Keeps history)
    {operation : Operation}
    {id : Digest}
    (unconcerned : ¬operation.Concerns history id) :
    (ledger.step operation).entries.get? id = ledger.entries.get? id := by
  cases operation with
  | put now script =>
      change (ledger.put now script).2.entries.get? id = _
      unfold Ledger.put
      split
      · dsimp only
        rw [Keyed.get?_put]
        exact if_neg unconcerned
      · rfl
  | register now owner value outpoint =>
      change (ledger.register now owner value outpoint).2.entries.get? id = _
      unfold Ledger.register
      split
      · rfl
      · dsimp only
        rw [Keyed.get?_put]
        exact if_neg unconcerned
  | redeem outpoint spender =>
      change (ledger.redeem outpoint spender).2.entries.get? id = _
      cases owner : ledger.owners.get? outpoint with
      | none => rw [redeem_of_unowned owner]
      | some name =>
          obtain ⟨entry, found⟩ := keeps.exists_entry owner
          rw [redeem_of_owner owner found]
          dsimp only
          rw [Keyed.get?_put, if_neg]
          rintro rfl
          exact unconcerned ((keeps.owners outpoint name).mp owner)

theorem Keeps.spender_eq_some_iff
    (keeps : ledger.Keeps history)
    {id : Digest}
    {output : OutputRecord}
    (present : output ∈ (ledger.get id).outputs)
    (spender : Digest) :
    output.spender = some spender ↔
      ∃ before after, history = before ++ .redeem output.outpoint spender :: after ∧
        output.outpoint ∈ outpointsOf before id ∧
        ∀ operation ∈ after, operation.spender? output.outpoint = none := by
  rw [keeps.outputs] at present
  obtain ⟨outpoint, inOutputs, rfl⟩ := List.mem_map.mp present
  have listed := List.mem_eraseDups.mp inOutputs
  change (spenders history outpoint).getLast? = some spender ↔
    ∃ before after, history = before ++ .redeem outpoint spender :: after ∧
      outpoint ∈ outpointsOf before id ∧
      ∀ operation ∈ after, operation.spender? outpoint = none
  rw [getLast?_spenders_eq_some_iff]
  constructor
  · rintro ⟨before, after, rfl, registered, silent⟩
    obtain ⟨name, listedBefore⟩ := isRegistered_iff.mp registered
    obtain rfl := keeps.eq_of_mem listed (mem_outpointsOf_append listedBefore _)
    exact ⟨before, after, rfl, listedBefore, silent⟩
  · rintro ⟨before, after, rfl, listedBefore, silent⟩
    exact ⟨before, after, rfl, isRegistered_of_mem listedBefore, silent⟩

theorem Keeps.reflects
    (keeps : ledger.Keeps history) :
    ledger.Reflects history where
  indexed := by
    intro outpoint id
    rw [keeps.outpoints_eq, List.mem_eraseDups]
    exact keeps.owners outpoint id
  once := by
    intro id
    rw [keeps.outpoints_eq]
    exact nodup_eraseDups _
  outputs := keeps.outputs
  spent := fun _ _ present spender => keeps.spender_eq_some_iff present spender
  unknown_iff := by
    intro id
    rw [keeps.status_eq]
    by_cases known : id ∈ entered history
    · simp [known, ScriptRecord.statusOf_ne_unknown]
    · simp [known]
  unspent_iff := by
    intro id
    rw [keeps.status_eq, ← ScriptRecord.statusOf_eq_unspent_iff]
    by_cases known : id ∈ entered history
    · simp [known]
    · simp [known]
  unredeemed_iff := fun id => (keeps.status_eq_iff id (by simp) (by simp)).trans
    ScriptRecord.statusOf_eq_unredeemed_iff
  redeemed_iff := fun id => (keeps.status_eq_iff id (by simp) (by simp)).trans
    ScriptRecord.statusOf_eq_redeemed_iff
  partiallyRedeemed_iff := fun id => (keeps.status_eq_iff id (by simp) (by simp)).trans
    ScriptRecord.statusOf_eq_partiallyRedeemed_iff
  answered := keeps.answered_iff
  framed := fun _ _ unconcerned => keeps.framed unconcerned

/-- Whatever happens to an empty ledger, it reflects its history, as long as
every output is registered under one name. -/
theorem run_reflects
    (history : List Operation)
    (oneOwner : HasOneOwner history) :
    ((empty : Ledger α).run history).Reflects history :=
  (keeps_run history oneOwner).reflects

/-- An output is spent before another one is registered, then it is registered
again with another value and spent again. -/
def paidAgain : List Operation :=
  let id : Digest := FixedBytes.filled 32 1
  let first : Outpoint := ⟨FixedBytes.filled 32 2, 0⟩
  let second : Outpoint := ⟨FixedBytes.filled 32 3, 0⟩
  [.register ⟨0, 0⟩ id 600 first, .redeem first (FixedBytes.filled 32 4),
    .register ⟨1, 0⟩ id 400 second, .register ⟨2, 0⟩ id 700 first,
    .redeem first (FixedBytes.filled 32 5)]

/-- With one of two outputs spent the ledger reflects its history. -/
theorem run_reflects_paidAgain :
    HasOneOwner paidAgain ∧
      ((empty : Ledger Rat).run paidAgain).Reflects paidAgain ∧
      (((empty : Ledger Rat).run paidAgain).get (FixedBytes.filled 32 1)).status =
        .partiallyRedeemed :=
  ⟨by decide, run_reflects paidAgain (by decide), by decide⟩

end Reflection

end Runs

end Ledger
end WorkMarket
