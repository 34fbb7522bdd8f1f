import Mathlib.Data.List.Induction
import Mathlib.Data.List.TakeWhile
import WorkMarket.Proofs.Market.LedgerRecords

/-!
# What the history of a ledger says of its outputs

A history is a list of operations, and says without a ledger what a ledger
should know: which names are entered, which outputs are registered under a
name, and of every output its first value and the last transaction that spends
it once it is registered.  The lemmas say what one more operation adds.
-/

namespace WorkMarket
namespace Ledger

/-- What can happen to a ledger. -/
inductive Operation where
  /-- A script is recorded. -/
  | put (now : Instant) (script : LockingScript)
  /-- An output is recorded under a name. -/
  | register (now : Instant) (id : Digest) (value : UInt64) (outpoint : Outpoint)
  /-- An output is spent. -/
  | redeem (outpoint : Outpoint) (spender : Digest)

/-- An output under a name. -/
structure Registration where
  id : Digest
  value : UInt64
  outpoint : Outpoint
deriving DecidableEq

namespace Operation

/-- The output that an operation registers, if it names something. -/
def registration? : Operation → Option Registration
  | .register _ id value outpoint =>
      if id.isValid ∧ outpoint.isValid then some ⟨id, value, outpoint⟩ else none
  | .put _ _ | .redeem _ _ => none

/-- The name that an operation enters, if what it enters is valid. -/
def entered? : Operation → Option Digest
  | .put _ script => if script.isValid then some script.id else none
  | .register _ id _ outpoint => if id.isValid ∧ outpoint.isValid then some id else none
  | .redeem _ _ => none

/-- The transaction by which an operation spends an output. -/
def spender?
    (outpoint : Outpoint) :
    Operation → Option Digest
  | .redeem spent spender => if spent = outpoint then some spender else none
  | .put _ _ | .register _ _ _ _ => none

theorem spender?_redeem
    (spent outpoint : Outpoint)
    (spender : Digest) :
    (redeem spent spender).spender? outpoint = if spent = outpoint then some spender else none :=
  rfl

theorem spender?_eq_some_iff
    {operation : Operation}
    {outpoint : Outpoint}
    {spender : Digest} :
    operation.spender? outpoint = some spender ↔ operation = .redeem outpoint spender := by
  cases operation with
  | put | register | redeem => simp [spender?]

/-- Whether an operation registers an output. -/
def registers
    (operation : Operation)
    (outpoint : Outpoint) :
    Bool :=
  operation.registration?.any fun registration => registration.outpoint = outpoint

end Operation

/-- The names that a history enters. -/
def entered
    (history : List Operation) :
    List Digest :=
  history.filterMap Operation.entered?

/-- The outputs that a history registers. -/
def registrations
    (history : List Operation) :
    List Registration :=
  history.filterMap Operation.registration?

/-- The outputs that a history registers under a name, as often as it does. -/
def outpointsOf
    (history : List Operation)
    (id : Digest) :
    List Outpoint :=
  ((registrations history).filter fun registration => registration.id = id).map
    Registration.outpoint

/-- Whether a history registers an output. -/
def IsRegistered
    (history : List Operation)
    (outpoint : Outpoint) : Prop :=
  ∃ registration ∈ registrations history, registration.outpoint = outpoint

/-- Whether a history registers every output under one name only. -/
def HasOneOwner
    (history : List Operation) : Prop :=
  ∀ first ∈ registrations history, ∀ second ∈ registrations history,
    first.outpoint = second.outpoint → first.id = second.id

instance (history : List Operation) : Decidable (HasOneOwner history) :=
  inferInstanceAs (Decidable (∀ first ∈ registrations history,
    ∀ second ∈ registrations history, first.outpoint = second.outpoint → first.id = second.id))

/-- The value with which an output is registered first. -/
def firstValue
    (history : List Operation)
    (outpoint : Outpoint) :
    UInt64 :=
  (((registrations history).find? fun registration => registration.outpoint = outpoint).map
    Registration.value).getD 0

/-- The transactions that spend an output since it is registered, in turn. -/
def spenders
    (history : List Operation)
    (outpoint : Outpoint) :
    List Digest :=
  (history.dropWhile fun operation => !operation.registers outpoint).filterMap
    (Operation.spender? outpoint)

/-- What a history has to say of an output that it registers: its first value,
and the last transaction that spends it since. -/
def recorded
    (history : List Operation)
    (outpoint : Outpoint) :
    OutputRecord :=
  ⟨firstValue history outpoint, outpoint, (spenders history outpoint).getLast?⟩

section Histories

variable {history : List Operation} {operation : Operation} {id : Digest} {outpoint : Outpoint}

theorem registrations_concat :
    registrations (history ++ [operation]) =
      registrations history ++ operation.registration?.toList := by
  unfold registrations
  rw [List.filterMap_append]
  cases found : operation.registration? <;> simp [found]

theorem mem_entered_concat_iff :
    id ∈ entered (history ++ [operation]) ↔
      id ∈ entered history ∨ operation.entered? = some id := by
  unfold entered
  rw [List.filterMap_append, List.mem_append]
  cases found : operation.entered? <;> simp [found, eq_comm]

theorem mem_outpointsOf_iff :
    outpoint ∈ outpointsOf history id ↔ ∃ value, ⟨id, value, outpoint⟩ ∈ registrations history := by
  unfold outpointsOf
  simp only [List.mem_map, List.mem_filter, decide_eq_true_eq]
  constructor
  · rintro ⟨⟨_, value, _⟩, ⟨present, rfl⟩, rfl⟩
    exact ⟨value, present⟩
  · rintro ⟨value, present⟩
    exact ⟨_, ⟨present, rfl⟩, rfl⟩

theorem isRegistered_iff :
    IsRegistered history outpoint ↔ ∃ id, outpoint ∈ outpointsOf history id := by
  simp only [mem_outpointsOf_iff]
  constructor
  · rintro ⟨⟨id, value, _⟩, present, rfl⟩
    exact ⟨id, value, present⟩
  · rintro ⟨id, value, present⟩
    exact ⟨_, present, rfl⟩

theorem isRegistered_of_mem
    (listed : outpoint ∈ outpointsOf history id) :
    IsRegistered history outpoint :=
  isRegistered_iff.mpr ⟨id, listed⟩

/-- What a history registers, it registers with whatever follows. -/
theorem mem_outpointsOf_append
    (listed : outpoint ∈ outpointsOf history id)
    (later : List Operation) :
    outpoint ∈ outpointsOf (history ++ later) id := by
  obtain ⟨value, present⟩ := mem_outpointsOf_iff.mp listed
  refine mem_outpointsOf_iff.mpr ⟨value, ?_⟩
  unfold registrations at present ⊢
  rw [List.filterMap_append]
  exact List.mem_append_left _ present

theorem IsRegistered.append
    (registered : IsRegistered history outpoint)
    (later : List Operation) :
    IsRegistered (history ++ later) outpoint := by
  obtain ⟨id, listed⟩ := isRegistered_iff.mp registered
  exact isRegistered_of_mem (mem_outpointsOf_append listed later)

/-- A name under which an output is registered is entered. -/
theorem mem_entered_of_mem_outpointsOf
    (listed : outpoint ∈ outpointsOf history id) :
    id ∈ entered history := by
  obtain ⟨value, present⟩ := mem_outpointsOf_iff.mp listed
  obtain ⟨registering, inHistory, registers⟩ := List.mem_filterMap.mp present
  refine List.mem_filterMap.mpr ⟨registering, inHistory, ?_⟩
  cases registering with
  | put | redeem => contradiction
  | register now owner value output =>
      unfold Operation.registration? at registers
      unfold Operation.entered?
      dsimp only at registers ⊢
      split at registers
      · rename_i valid
        rw [if_pos valid]
        exact congrArg (Option.map Registration.id) registers
      · contradiction

/-- What registers nothing leaves the outputs of every name. -/
theorem outpointsOf_concat_of_none
    (nothing : operation.registration? = none) :
    outpointsOf (history ++ [operation]) id = outpointsOf history id := by
  unfold outpointsOf
  rw [registrations_concat, nothing, Option.toList_none, List.append_nil]

theorem outpointsOf_concat_of_some
    {registration : Registration}
    (registered : operation.registration? = some registration) :
    outpointsOf (history ++ [operation]) id =
      outpointsOf history id ++ if registration.id = id then [registration.outpoint] else [] := by
  unfold outpointsOf
  rw [registrations_concat, registered, Option.toList_some, List.filter_append, List.map_append]
  by_cases same : registration.id = id <;> simp [same]

theorem mem_outpointsOf_concat_iff
    {registration : Registration}
    (registered : operation.registration? = some registration) :
    outpoint ∈ outpointsOf (history ++ [operation]) id ↔
      outpoint ∈ outpointsOf history id ∨
        registration.id = id ∧ registration.outpoint = outpoint := by
  rw [outpointsOf_concat_of_some registered, List.mem_append]
  by_cases same : registration.id = id <;> simp [same, eq_comm]

/-- A history up to an earlier moment has one owner for each output, too. -/
theorem HasOneOwner.of_concat
    (oneOwner : HasOneOwner (history ++ [operation])) :
    HasOneOwner history := by
  unfold HasOneOwner at oneOwner
  rw [registrations_concat] at oneOwner
  intro first firstPresent second secondPresent
  exact oneOwner first (List.mem_append_left _ firstPresent) second
    (List.mem_append_left _ secondPresent)

/-- The first value of a registered output stays. -/
theorem firstValue_concat
    (registered : IsRegistered history outpoint) :
    firstValue (history ++ [operation]) outpoint = firstValue history outpoint := by
  obtain ⟨registration, present, isOutput⟩ := registered
  have found : ((registrations history).find? fun registration =>
      registration.outpoint = outpoint).isSome = true :=
    List.find?_isSome.mpr ⟨registration, present, by simpa using isOutput⟩
  unfold firstValue
  rw [registrations_concat, List.find?_append, Option.or_of_isSome found]

theorem dropWhile_eq_nil_iff :
    (history.dropWhile fun operation => !operation.registers outpoint) = [] ↔
      ¬IsRegistered history outpoint := by
  rw [List.dropWhile_eq_nil_iff]
  constructor
  · rintro none ⟨registration, present, isOutput⟩
    obtain ⟨registering, inHistory, registers⟩ := List.mem_filterMap.mp present
    simpa [Operation.registers, registers, isOutput] using none registering inHistory
  · intro unregistered other present
    cases found : other.registration? with
    | none => simp [Operation.registers, found]
    | some registration =>
        have different : registration.outpoint ≠ outpoint := fun isOutput =>
          unregistered ⟨registration, List.mem_filterMap.mpr ⟨other, present, found⟩, isOutput⟩
        simp [Operation.registers, found, different]

/-- A registered output is spent by whatever spends it. -/
theorem spenders_concat
    (registered : IsRegistered history outpoint) :
    spenders (history ++ [operation]) outpoint =
      spenders history outpoint ++ (operation.spender? outpoint).toList := by
  have since := mt dropWhile_eq_nil_iff.mp (not_not.mpr registered)
  unfold spenders
  rw [List.dropWhile_append, if_neg (by simpa using since), List.filterMap_append]
  cases found : operation.spender? outpoint <;> simp [found]

/-- An output that was not registered before is not spent yet. -/
theorem spenders_concat_of_new
    (isNew : ¬IsRegistered history outpoint) :
    spenders (history ++ [operation]) outpoint = [] := by
  unfold spenders
  rw [List.dropWhile_append, dropWhile_eq_nil_iff.mpr isNew]
  cases operation with
  | put | redeem => rfl
  | register now id value other =>
      by_cases registers : (Operation.register now id value other).registers outpoint = true <;>
        simp [registers, Operation.spender?]

theorem recorded_concat
    (registered : IsRegistered history outpoint) :
    recorded (history ++ [operation]) outpoint =
      { recorded history outpoint with
        spender := (operation.spender? outpoint).or (recorded history outpoint).spender } := by
  simp only [recorded, firstValue_concat registered, spenders_concat registered,
    List.getLast?_append]
  cases operation.spender? outpoint <;> rfl

/-- A transaction that spends an output is noted with it. -/
theorem recorded_concat_redeem
    (registered : IsRegistered history outpoint)
    (spent : Outpoint)
    (spender : Digest) :
    recorded (history ++ [.redeem spent spender]) outpoint =
      (recorded history outpoint).spentBy spent spender := by
  rw [recorded_concat registered, Operation.spender?_redeem]
  unfold OutputRecord.spentBy
  change _ = if outpoint = spent then _ else _
  by_cases same : outpoint = spent
  · rw [if_pos same.symm, if_pos same]
    rfl
  · rw [if_neg (Ne.symm same), if_neg same]
    rfl

/-- A new output has the value with which it is registered, and is unspent. -/
theorem recorded_concat_of_new
    {registration : Registration}
    (registered : operation.registration? = some registration)
    (isNew : ¬IsRegistered history registration.outpoint) :
    recorded (history ++ [operation]) registration.outpoint =
      ⟨registration.value, registration.outpoint, none⟩ := by
  have unseen : ((registrations history).find? fun earlier =>
      earlier.outpoint = registration.outpoint) = none :=
    List.find?_eq_none.mpr fun earlier present same =>
      isNew ⟨earlier, present, of_decide_eq_true same⟩
  have value : firstValue (history ++ [operation]) registration.outpoint = registration.value := by
    unfold firstValue
    rw [registrations_concat, registered, List.find?_append, unseen]
    simp
  rw [recorded, value, spenders_concat_of_new isNew]
  rfl

/-- A history that ends with an operation splits there, or before it. -/
theorem concat_eq_append_cons_iff
    {before after : List Operation}
    {middle : Operation} :
    history ++ [operation] = before ++ middle :: after ↔
      (after = [] ∧ history = before ∧ operation = middle) ∨
        ∃ earlier, after = earlier ++ [operation] ∧ history = before ++ middle :: earlier := by
  cases after using List.reverseRecOn with
  | nil => simp
  | append_singleton after last =>
      rw [← List.cons_append, ← List.append_assoc]
      constructor
      · intro same
        obtain ⟨rest, isLast⟩ := List.append_inj' same rfl
        exact Or.inr ⟨after, by rw [isLast], rest⟩
      · rintro (⟨isEmpty, -, -⟩ | ⟨earlier, same, rest⟩)
        · simp at isEmpty
        · obtain ⟨rfl, isLast⟩ := List.append_inj' same rfl
          rw [rest, isLast]

/-- The last transaction that spends an output is the one of the last operation
that spends it, once it is registered. -/
theorem getLast?_spenders_eq_some_iff
    {spender : Digest} :
    (spenders history outpoint).getLast? = some spender ↔
      ∃ before after, history = before ++ .redeem outpoint spender :: after ∧
        IsRegistered before outpoint ∧
        ∀ operation ∈ after, operation.spender? outpoint = none := by
  -- From the end: the last operation spends the output, or says nothing of it.
  induction history using List.reverseRecOn with
  | nil => simp [spenders]
  | append_singleton history operation inductionHypothesis =>
      simp only [concat_eq_append_cons_iff]
      by_cases registered : IsRegistered history outpoint
      · rw [spenders_concat registered, List.getLast?_append]
        cases spends : operation.spender? outpoint with
        | none =>
            change (spenders history outpoint).getLast? = some spender ↔ _
            rw [inductionHypothesis]
            constructor
            · rintro ⟨before, after, split, earlier, silent⟩
              refine ⟨before, after ++ [operation], Or.inr ⟨after, rfl, split⟩, earlier, ?_⟩
              simpa [or_imp, forall_and, spends] using silent
            · rintro ⟨before, after, ⟨-, -, isLast⟩ | ⟨after, rfl, split⟩, earlier, silent⟩
              · rw [Operation.spender?_eq_some_iff.mpr isLast] at spends
                contradiction
              · exact ⟨before, after, split, earlier, fun other present =>
                  silent other (List.mem_append_left _ present)⟩
        | some last =>
            change some last = some spender ↔ _
            constructor
            · intro isSpender
              obtain rfl := Option.some.inj isSpender
              exact ⟨history, [], Or.inl ⟨rfl, rfl, Operation.spender?_eq_some_iff.mp spends⟩,
                registered, by simp⟩
            · rintro ⟨before, after, ⟨-, -, isLast⟩ | ⟨after, rfl, -⟩, -, silent⟩
              · rw [← spends, Operation.spender?_eq_some_iff.mpr isLast]
              · rw [silent operation (by simp)] at spends
                contradiction
      · rw [spenders_concat_of_new registered]
        refine iff_of_false (by simp) ?_
        rintro ⟨before, after, ⟨-, rfl, -⟩ | ⟨after, -, rfl⟩, earlier, -⟩
        · exact registered earlier
        · exact registered (earlier.append _)

end Histories

end Ledger
end WorkMarket
