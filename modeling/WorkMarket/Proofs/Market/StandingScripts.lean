import WorkMarket.Proofs.Market.LedgerRuns

/-!
# The scripts that stand in a ledger

An entry may be made by an output, long before its script is put, and a script
that is put takes the place of another of its name.  So a history tells of every
name when it was entered first and which script was put under it last.  `Files` is
what an operation preserves: the entry of a name says both, and notes the difficulty
of its script.
-/

namespace WorkMarket
namespace LockingScript

/-- Whether a script stands for another one: both have one name, and unless their
bytes collide under the hash, they agree in everything but the miner, and are the
same if they are regular. -/
structure StandsFor
    (last script : LockingScript) : Prop where
  id_eq : last.id = script.id
  sharesFields : (hash256 last.write = hash256 script.write → last.write = script.write) →
    last.tag.length < UInt32.size → script.tag.length < UInt32.size → last.SharesFields script
  eq : (hash256 last.write = hash256 script.write → last.write = script.write) →
    last.IsRegular → script.IsRegular → last = script

/-- Work scripts of one name stand for each other. -/
theorem standsFor_of_id_eq
    {last script : LockingScript}
    (lastValid : last.isValid = true)
    (valid : script.isValid = true)
    (same : last.id = script.id) :
    last.StandsFor script where
  id_eq := same
  sharesFields := by
    intro noCollision lastMeasured measured
    unfold id at same
    rw [if_pos lastValid, if_pos valid] at same
    exact (sharesFields_of_write_eq lastValid valid lastMeasured measured (noCollision same)).1
  eq := fun noCollision lastRegular regular =>
    eq_of_id_eq lastValid valid lastRegular regular noCollision same

end LockingScript

namespace Ledger

namespace Operation

/-- The script that an operation puts, if it is a work script. -/
def script? : Operation → Option LockingScript
  | .put _ script => if script.isValid then some script else none
  | .register _ _ _ _ | .redeem _ _ => none

/-- The instant at which an operation enters a name. -/
def entersAt?
    (id : Digest) :
    Operation → Option Instant
  | .put now script => if script.isValid ∧ script.id = id then some now else none
  | .register now owner _ outpoint =>
      if (owner.isValid ∧ outpoint.isValid) ∧ owner = id then some now else none
  | .redeem _ _ => none

end Operation

/-- The work scripts that a history puts, as often as it does. -/
def putScripts
    (history : List Operation) :
    List LockingScript :=
  history.filterMap Operation.script?

/-- The script that a history puts last under a name. -/
def lastPut?
    (history : List Operation)
    (id : Digest) :
    Option LockingScript :=
  (putScripts history).reverse.find? fun script => script.id = id

/-- The instant at which a history enters a name first. -/
def firstSeen?
    (history : List Operation)
    (id : Digest) :
    Option Instant :=
  history.findSome? (Operation.entersAt? id)

/-- The scripts that no other of their name replaces, each of them once. -/
def standing
    (history : List Operation) :
    List LockingScript :=
  (putScripts history).eraseDups.filter fun script =>
    lastPut? history script.id = some script

section Histories

variable {history : List Operation} {operation : Operation} {id : Digest}
  {script : LockingScript}

theorem putScripts_concat :
    putScripts (history ++ [operation]) = putScripts history ++ operation.script?.toList := by
  unfold putScripts
  rw [List.filterMap_append]
  cases found : operation.script? <;> simp [found]

theorem mem_putScripts_iff :
    script ∈ putScripts history ↔
      script.isValid = true ∧ ∃ now, Operation.put now script ∈ history := by
  unfold putScripts
  rw [List.mem_filterMap]
  constructor
  · rintro ⟨operation, present, puts⟩
    cases operation with
    | put now other =>
        obtain ⟨valid, isScript⟩ := Option.ite_none_right_eq_some.mp puts
        obtain rfl := Option.some.inj isScript
        exact ⟨valid, now, present⟩
    | register | redeem => contradiction
  · rintro ⟨valid, now, present⟩
    exact ⟨_, present, if_pos valid⟩

/-- The name of a script that is put is entered. -/
theorem exists_firstSeen
    (put : script ∈ putScripts history) :
    ∃ firstSeen, firstSeen? history script.id = some firstSeen := by
  obtain ⟨valid, now, present⟩ := mem_putScripts_iff.mp put
  have enters : (Operation.put now script).entersAt? script.id = some now :=
    if_pos ⟨valid, rfl⟩
  exact Option.isSome_iff_exists.mp
    (List.findSome?_isSome_iff.mpr ⟨_, present, by rw [enters]; rfl⟩)

/-- What puts no script leaves the last one of every name. -/
theorem lastPut?_concat_of_none
    (nothing : operation.script? = none) :
    lastPut? (history ++ [operation]) id = lastPut? history id := by
  unfold lastPut?
  rw [putScripts_concat, nothing, Option.toList_none, List.append_nil]

/-- A script that is put is the last one of its name. -/
theorem lastPut?_concat_of_some
    (puts : operation.script? = some script) :
    lastPut? (history ++ [operation]) id =
      if script.id = id then some script else lastPut? history id := by
  unfold lastPut?
  rw [putScripts_concat, puts, Option.toList_some, List.reverse_concat, List.find?_cons]
  by_cases same : script.id = id <;> simp [same]

/-- A name keeps the instant at which it was entered first. -/
theorem firstSeen?_concat :
    firstSeen? (history ++ [operation]) id =
      (firstSeen? history id).or (operation.entersAt? id) := by
  unfold firstSeen?
  rw [List.findSome?_append]
  cases entered : operation.entersAt? id <;> simp [entered]

theorem lastPut?_eq_some
    (last : lastPut? history id = some script) :
    script ∈ putScripts history ∧ script.id = id :=
  ⟨List.mem_reverse.mp (List.mem_of_find?_eq_some last), by simpa using List.find?_some last⟩

theorem mem_standing_iff :
    script ∈ standing history ↔ lastPut? history script.id = some script := by
  unfold standing
  rw [List.mem_filter, List.mem_eraseDups, decide_eq_true_eq]
  exact and_iff_right_of_imp fun last => (lastPut?_eq_some last).1

/-- No two scripts that stand share a name. -/
theorem nodup_ids_standing :
    ((standing history).map LockingScript.id).Nodup := by
  refine List.Nodup.map_on ?_ ((nodup_eraseDups _).filter _)
  intro first firstStands second secondStands same
  have last := mem_standing_iff.mp firstStands
  rw [same, mem_standing_iff.mp secondStands] at last
  exact (Option.some.inj last).symm

/-- For every script that is put one stands. -/
theorem exists_standsFor
    (put : script ∈ putScripts history) :
    ∃ last ∈ standing history, last.StandsFor script := by
  have found : (lastPut? history script.id).isSome = true :=
    List.find?_isSome.mpr ⟨script, List.mem_reverse.mpr put, by simp⟩
  obtain ⟨last, isLast⟩ := Option.isSome_iff_exists.mp found
  obtain ⟨lastPut, named⟩ := lastPut?_eq_some isLast
  exact ⟨last, mem_standing_iff.mpr (by rw [named, isLast]),
    LockingScript.standsFor_of_id_eq (mem_putScripts_iff.mp lastPut).1
      (mem_putScripts_iff.mp put).1 named⟩

end Histories

section Filing

variable {α : Type} [Scalar α] {ledger : Ledger α} {history : List Operation}

/-- What the entries of a ledger tell of its history. -/
structure Files
    (ledger : Ledger α)
    (history : List Operation) : Prop where
  distinct : ledger.entries.keys.Nodup
  indexed : ledger.IsIndexed
  seen : ∀ id, (ledger.entries.get? id).map LedgerEntry.firstSeen = firstSeen? history id
  scripts : ∀ id, (ledger.entries.get? id).bind LedgerEntry.script = lastPut? history id
  noted : ∀ id entry script, ledger.entries.get? id = some entry → entry.script = some script →
    entry.record.difficulty = script.notedDifficulty α

theorem files_empty :
    (empty : Ledger α).Files [] where
  distinct := List.Pairwise.nil
  indexed := isIndexed_empty
  seen := fun _ => rfl
  scripts := fun _ => rfl
  noted := by simp [empty]

/-- A new entry is first seen now, any other when it was before. -/
theorem some_firstSeen_entryAt
    (ledger : Ledger α)
    (now : Instant)
    (id : Digest) :
    some (ledger.entryAt now id).firstSeen =
      ((ledger.entries.get? id).map LedgerEntry.firstSeen).or (some now) := by
  unfold entryAt
  cases ledger.entries.get? id <;> rfl

/-- A new entry has no script, any other the one that it had before. -/
theorem script_entryAt
    (ledger : Ledger α)
    (now : Instant)
    (id : Digest) :
    (ledger.entryAt now id).script = (ledger.entries.get? id).bind LedgerEntry.script := by
  unfold entryAt
  cases ledger.entries.get? id <;> rfl

/-- What puts no script and enters no new name changes nothing. -/
theorem Files.concat_of_idle
    (files : ledger.Files history)
    {operation : Operation}
    (script : operation.script? = none)
    (known : ∀ id now, operation.entersAt? id = some now →
      (ledger.entries.get? id).isSome = true) :
    ledger.Files (history ++ [operation]) where
  distinct := files.distinct
  indexed := files.indexed
  seen := by
    intro id
    rw [firstSeen?_concat, ← files.seen]
    cases enters : operation.entersAt? id with
    | none => rw [Option.or_none]
    | some now => rw [Option.or_of_isSome (by simpa using known id now enters)]
  scripts := by
    intro id
    rw [lastPut?_concat_of_none script]
    exact files.scripts id
  noted := files.noted

theorem Files.put
    (files : ledger.Files history)
    (now : Instant)
    (script : LockingScript) :
    (ledger.put now script).2.Files (history ++ [.put now script]) := by
  by_cases valid : script.isValid = true
  · have puts : (Operation.put now script).script? = some script := if_pos valid
    refine ⟨?_, files.indexed.put now script, ?_, ?_, ?_⟩
    · rw [put_eq valid]
      exact Keyed.nodup_keys_put files.distinct _ _
    · intro id
      rw [put_eq valid, firstSeen?_concat, ← files.seen]
      dsimp only
      rw [Keyed.get?_put]
      by_cases same : script.id = id
      · subst same
        rw [if_pos rfl, Operation.entersAt?, if_pos ⟨valid, rfl⟩, ← some_firstSeen_entryAt]
        rfl
      · rw [if_neg same, Operation.entersAt?, if_neg fun enters => same enters.2,
          Option.or_none]
    · intro id
      rw [put_eq valid, lastPut?_concat_of_some puts, ← files.scripts]
      dsimp only
      rw [Keyed.get?_put]
      split
      · rfl
      · rfl
    · intro id entry noted found isScript
      rw [put_eq valid] at found
      dsimp only at found
      rw [Keyed.get?_put] at found
      split at found
      · rw [← Option.some.inj found] at isScript ⊢
        rw [← Option.some.inj isScript]
        rfl
      · exact files.noted id entry noted found isScript
  · unfold Ledger.put
    rw [if_neg valid]
    exact files.concat_of_idle (if_neg valid) fun id _ enters => by
      simp [Operation.entersAt?, valid] at enters

/-- Other outputs leave the script of an entry, and when it was first seen. -/
theorem Files.concat_of_outputs
    (files : ledger.Files history)
    {operation : Operation}
    {next : Ledger α}
    {now : Instant}
    {id : Digest}
    {outputs : List OutputRecord}
    (entries : next.entries =
      ledger.entries.put id ((ledger.entryAt now id).withOutputs outputs))
    (indexed : next.IsIndexed)
    (script : operation.script? = none)
    (seen : firstSeen? (history ++ [operation]) id = some (ledger.entryAt now id).firstSeen)
    (others : ∀ other, id ≠ other → operation.entersAt? other = none) :
    next.Files (history ++ [operation]) where
  distinct := by
    rw [entries]
    exact Keyed.nodup_keys_put files.distinct _ _
  indexed := indexed
  seen := by
    intro other
    rw [entries, Keyed.get?_put]
    split
    · rename_i same
      rw [← same, seen]
      rfl
    · rename_i different
      rw [firstSeen?_concat, others other different, Option.or_none]
      exact files.seen other
  scripts := by
    intro other
    rw [entries, Keyed.get?_put, lastPut?_concat_of_none script, ← files.scripts]
    split
    · rename_i same
      rw [← same, ← ledger.script_entryAt now]
      rfl
    · rfl
  noted := by
    intro other entry noted found isScript
    rw [entries, Keyed.get?_put] at found
    split at found
    · rw [← Option.some.inj found] at isScript ⊢
      change (ledger.entryAt now id).script = some noted at isScript
      change (ledger.entryAt now id).record.difficulty = _
      rw [script_entryAt] at isScript
      obtain ⟨earlier, before, isEarlier⟩ := Option.bind_eq_some_iff.mp isScript
      rw [entryAt, before]
      exact files.noted id earlier noted before isEarlier
    · exact files.noted other entry noted found isScript

theorem Files.register
    (files : ledger.Files history)
    (now : Instant)
    (id : Digest)
    (value : UInt64)
    (outpoint : Outpoint) :
    (ledger.register now id value outpoint).2.Files
      (history ++ [.register now id value outpoint]) := by
  by_cases valid : id.isValid = true ∧ outpoint.isValid = true
  · have enters (other : Digest) : (Operation.register now id value outpoint).entersAt? other =
        if id = other then some now else none := by
      simp [Operation.entersAt?, valid]
    by_cases owned : ledger.owners.get? outpoint = some id
    · rw [register_of_refused fun _ => owned]
      refine files.concat_of_idle rfl fun other seen entered => ?_
      rw [enters] at entered
      split at entered
      · rename_i same
        obtain ⟨entry, found, _⟩ := files.indexed.exists_entry owned
        rw [← same, found]
        rfl
      · contradiction
    · have accepted : (ledger.register now id value outpoint).1 = true := by
        unfold Ledger.register
        rw [if_neg (by simp [valid, owned])]
      have entries := congrArg (fun answer => answer.2.entries) (register_eq accepted)
      refine files.concat_of_outputs entries (files.indexed.register now id value outpoint) rfl
        ?_ fun other different => ?_
      · rw [firstSeen?_concat, ← files.seen, enters, if_pos rfl, some_firstSeen_entryAt]
      · rw [enters, if_neg different]
  · rw [register_of_refused fun isValid => absurd isValid valid]
    exact files.concat_of_idle rfl fun other seen enters => by
      simp [Operation.entersAt?, valid] at enters

theorem Files.redeem
    (files : ledger.Files history)
    (outpoint : Outpoint)
    (spender : Digest) :
    (ledger.redeem outpoint spender).2.Files (history ++ [.redeem outpoint spender]) := by
  cases owned : ledger.owners.get? outpoint with
  | none =>
      rw [redeem_of_unowned owned]
      exact files.concat_of_idle rfl fun _ _ enters => by contradiction
  | some id =>
      obtain ⟨entry, found, _⟩ := files.indexed.exists_entry owned
      have known : ledger.entryAt entry.firstSeen id = entry := by
        rw [entryAt, found]
        rfl
      have entries := congrArg (fun answer => answer.2.entries)
        (redeem_of_owner owned found spender)
      rw [← known] at entries
      refine files.concat_of_outputs entries (files.indexed.redeem outpoint spender) rfl
        ?_ fun _ _ => rfl
      rw [firstSeen?_concat, ← files.seen, found, known]
      rfl

/-- One operation after another, a ledger files its history. -/
theorem files_run
    (history : List Operation) :
    ((empty : Ledger α).run history).Files history := by
  induction history using List.reverseRecOn with
  | nil => exact files_empty
  | append_singleton history operation inductionHypothesis =>
      unfold run at inductionHypothesis ⊢
      rw [List.foldl_concat]
      cases operation with
      | put now script => exact inductionHypothesis.put now script
      | register now id value outpoint =>
          exact inductionHypothesis.register now id value outpoint
      | redeem outpoint spender => exact inductionHypothesis.redeem outpoint spender

end Filing

end Ledger
end WorkMarket
