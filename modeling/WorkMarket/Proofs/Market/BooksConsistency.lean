import WorkMarket.Proofs.Market.BooksService

/-!
# The books stay consistent

Whatever a chain brings, every output that a schedule holds is registered with
the ledger under the name of its script, and no script that is redeemed is held
at all.  Soundness and the outputs held are followed through the cases of an
event.
-/

namespace WorkMarket
namespace Books

variable {α : Type}

section Invariant

variable {books : Books α}

/-- An output that either schedule holds. -/
def Holds
    (books : Books α)
    (id : Digest)
    (outpoint : Outpoint) : Prop :=
  books.contracts.Holds id outpoint ∨ books.bounties.Holds id outpoint

/-- The ledger and both schedules are in step. -/
structure IsSound
    [Scalar α]
    (pays : LockingScript → Outpoint → Prop)
    (books : Books α) : Prop where
  current : books.ledger.IsCurrent
  indexed : books.ledger.IsIndexed
  owned : ∀ outpoint id, books.ledger.owners.get? outpoint = some id →
    ∃ script, pays script outpoint ∧ script.id = id
  contracts : books.contracts.IsSound
  bounties : books.bounties.IsSound
  issued : ∀ id listing, books.bounties.listing? id = some listing →
    books.addresses.HasIssued listing.address
  registered : ∀ id outpoint, books.Holds id outpoint →
    books.ledger.owners.get? outpoint = some id
  unredeemed : ∀ id outpoint, books.Holds id outpoint →
    (books.ledger.get id).status ≠ .redeemed

end Invariant

variable [Scalar α] {books : Books α} {pays : LockingScript → Outpoint → Prop}

theorem isSound_empty
    (pays : LockingScript → Outpoint → Prop)
    (addresses : AddressBook)
    (costs : CostModel α) :
    (empty addresses costs).IsSound pays where
  current := Ledger.isCurrent_empty
  indexed := Ledger.isIndexed_empty
  owned := by simp [empty, Ledger.empty]
  contracts := ContractSchedule.isSound_empty
  bounties := BountySchedule.isSound_empty costs
  issued := by
    simp [empty, BountySchedule.empty, BountySchedule.listing?, Ranking.empty, Ranking.get?]
  registered := by
    simp [empty, Holds, ContractSchedule.Holds, ContractSchedule.empty, ContractQueue.empty,
      BountySchedule.Holds, BountySchedule.empty, BountySchedule.listing?, Ranking.empty,
      Ranking.get?]
  unredeemed := by
    simp [empty, Holds, ContractSchedule.Holds, ContractSchedule.empty, ContractQueue.empty,
      BountySchedule.Holds, BountySchedule.empty, BountySchedule.listing?, Ranking.empty,
      Ranking.get?]

/-- Every job that is offered comes from a sound listing under its name that
holds an output. -/
theorem IsSound.exists_of_offers
    (sound : books.IsSound pays)
    {id : Digest}
    {job : Job}
    (offered : books.Offers id job) :
    ∃ listing : Listing, listing.IsSound id ∧ job = listing.job ∧
      ∀ outpoint ∈ listing.outpoints, books.Holds id outpoint := by
  rcases offered with ⟨contract, front, rfl, rfl⟩ | ⟨listing, listed, rfl⟩
  · have present := ContractSchedule.mem_of_front? front
    exact ⟨contract.listing, sound.contracts.sound contract present, rfl,
      fun outpoint listed => Or.inl ⟨contract, present, rfl, listed⟩⟩
  · exact ⟨listing, sound.bounties.sound id listing listed, rfl,
      fun outpoint present => Or.inr ⟨listing, listed, present⟩⟩

/-- A redeemed script offers no job. -/
theorem IsSound.unredeemed_of_offers
    (sound : books.IsSound pays)
    {id : Digest}
    {job : Job}
    (offered : books.Offers id job) :
    (books.ledger.get id).status ≠ .redeemed := by
  obtain ⟨listing, listingSound, _, held⟩ := sound.exists_of_offers offered
  obtain ⟨outpoint, present⟩ := List.exists_mem_of_ne_nil _ listingSound.outpoints_ne_nil
  exact sound.unredeemed id outpoint (held outpoint present)

/-- Sound books serve workers. -/
theorem IsSound.isServing
    (sound : books.IsSound pays) :
    books.IsServing :=
  ⟨sound.contracts, sound.bounties, sound.issued⟩

section Soundness

variable {output : Output}

/-- Sound books stay sound when their schedules hold no more than an output
that is registered and whose script is not redeemed. -/
theorem IsSound.of_noted
    (sound : books.IsSound pays)
    {next : Books α}
    (ledger : next.ledger = books.ledger)
    (contracts : next.contracts.IsSound)
    (bounties : next.bounties.IsSound)
    (issued : ∀ id listing, next.bounties.listing? id = some listing →
      next.addresses.HasIssued listing.address)
    (held : ∀ id outpoint, next.Holds id outpoint →
      books.Holds id outpoint ∨ id = output.id ∧ outpoint = output.outpoint)
    (registered : books.ledger.owners.get? output.outpoint = some output.id)
    (unredeemed : (books.ledger.get output.id).status ≠ .redeemed) :
    next.IsSound pays where
  current := ledger ▸ sound.current
  indexed := ledger ▸ sound.indexed
  owned := ledger ▸ sound.owned
  contracts := contracts
  bounties := bounties
  issued := issued
  registered := by
    intro id outpoint inNext
    rw [ledger]
    rcases held id outpoint inNext with before | ⟨rfl, rfl⟩
    · exact sound.registered id outpoint before
    · exact registered
  unredeemed := by
    intro id outpoint inNext
    rw [ledger]
    rcases held id outpoint inNext with before | ⟨rfl, rfl⟩
    · exact sound.unredeemed id outpoint before
    · exact unredeemed

/-- Ranking a bounty adds no output but its own. -/
theorem IsSound.of_holds_rankBounty
    (sound : books.IsSound pays)
    (named : output.script.id = output.id)
    (regular : output.script.IsRegular)
    {draw : α}
    (distinct : (books.rankBounty output draw).addresses.NeverRepeats)
    {id : Digest}
    {outpoint : Outpoint}
    (held : (books.rankBounty output draw).Holds id outpoint) :
    books.Holds id outpoint ∨ id = output.id ∧ outpoint = output.outpoint := by
  rcases books.rankBounty_cases output draw with ⟨_, noted⟩ | ⟨unranked, entered⟩
  · rw [noted] at held
    rcases held with held | held
    · exact Or.inl (Or.inl held)
    · exact (BountySchedule.of_holds_addOutput held).imp_left Or.inr
  · rw [entered] at distinct held
    rcases held with held | held
    · exact Or.inl (Or.inl held)
    · have unused := sound.isServing.unused distinct
      exact (sound.bounties.of_holds_insert unranked named regular unused draw held).imp_left
        Or.inr

/-- Accepting a contract adds no output but its own. -/
theorem of_holds_acceptContract
    {id : Digest}
    {outpoint : Outpoint}
    (held : (books.acceptContract output).Holds id outpoint) :
    books.Holds id outpoint ∨ id = output.id ∧ outpoint = output.outpoint := by
  rcases books.acceptContract_cases output with
    ⟨_, ignored⟩ | ⟨_, _, _, queued⟩ | ⟨_, _, _, noted⟩
  · rw [ignored] at held
    exact Or.inl held
  · rw [queued] at held
    rcases held with held | held
    · exact (ContractSchedule.of_holds_insert held).imp_left Or.inl
    · exact Or.inl (Or.inr held)
  · rw [noted] at held
    rcases held with held | held
    · exact (ContractSchedule.of_holds_addOutput held).imp_left Or.inl
    · exact Or.inl (Or.inr held)

theorem IsSound.rankBounty
    (sound : books.IsSound pays)
    (named : output.script.id = output.id)
    (regular : output.script.IsRegular)
    (registered : books.ledger.owners.get? output.outpoint = some output.id)
    (unredeemed : (books.ledger.get output.id).status ≠ .redeemed)
    (draw : α)
    (distinct : (books.rankBounty output draw).addresses.NeverRepeats) :
    (books.rankBounty output draw).IsSound pays := by
  have serving := sound.isServing.rankBounty named regular draw distinct
  exact sound.of_noted (ledger_rankBounty books output draw) serving.contracts serving.bounties
    serving.issued (fun _ _ => sound.of_holds_rankBounty named regular distinct) registered
    unredeemed

theorem IsSound.acceptContract
    (sound : books.IsSound pays)
    (named : output.script.id = output.id)
    (regular : output.script.IsRegular)
    (registered : books.ledger.owners.get? output.outpoint = some output.id)
    (unredeemed : (books.ledger.get output.id).status ≠ .redeemed) :
    (books.acceptContract output).IsSound pays := by
  have serving := sound.isServing.acceptContract named regular
  exact sound.of_noted (ledger_acceptContract books output) serving.contracts serving.bounties
    serving.issued (fun _ _ => of_holds_acceptContract) registered unredeemed

/-- Putting a script into the ledger redeems nothing. -/
theorem IsSound.put
    (sound : books.IsSound pays)
    (now : Instant)
    (script : LockingScript) :
    ({ books with ledger := (books.ledger.put now script).2 } : Books α).IsSound pays where
  current := sound.current.put now script
  indexed := sound.indexed.put now script
  owned := by
    rw [Ledger.owners_put]
    exact sound.owned
  contracts := sound.contracts
  bounties := sound.bounties
  issued := sound.issued
  registered := by
    rw [Ledger.owners_put]
    exact sound.registered
  unredeemed := fun id outpoint held redeemed =>
    sound.unredeemed id outpoint held (sound.current.redeemed_of_put redeemed)

/-- On a chain an output that is new to its script is new altogether. -/
theorem IsSound.unowned
    (sound : books.IsSound pays)
    (chain : IsChain pays)
    {script : LockingScript}
    {outpoint : Outpoint}
    (paid : pays script outpoint)
    (fresh : books.ledger.owners.get? outpoint ≠ some script.id) :
    books.ledger.owners.get? outpoint = none := by
  cases owner : books.ledger.owners.get? outpoint with
  | none => rfl
  | some id =>
      obtain ⟨other, otherPaid, rfl⟩ := sound.owned outpoint id owner
      rw [chain.oneScript other script outpoint otherPaid paid] at owner
      exact absurd owner fresh

/-- A new output is registered, and its script is not redeemed. -/
theorem IsSound.recorded
    (sound : books.IsSound pays)
    (chain : IsChain pays)
    {script : LockingScript}
    {outpoint : Outpoint}
    (paid : pays script outpoint)
    {now : Instant}
    {value : UInt64}
    (new : ((books.ledger.put now script).2.register now script.id value outpoint).1 = true) :
    (books.recorded now script value outpoint).IsSound pays ∧
      books.ledger.owners.get? outpoint = none ∧
      (books.recorded now script value outpoint).ledger.owners =
        books.ledger.owners.put outpoint script.id ∧
      ((books.recorded now script value outpoint).ledger.get script.id).status ≠ .redeemed := by
  have putSound := sound.put now script
  rcases (books.ledger.put now script).2.register_cases now script.id value outpoint with
    known | ⟨_, fresh, owners, unredeemed, _, others⟩
  · rw [known] at new
    contradiction
  rw [Ledger.owners_put] at fresh owners
  have unowned := sound.unowned chain paid fresh
  refine ⟨?_, unowned, owners, unredeemed⟩
  constructor
  · exact putSound.current.register now script.id value outpoint
  · exact putSound.indexed.register now script.id value outpoint
  · intro other id owner
    change ((books.ledger.put now script).2.register now script.id value outpoint).2.owners.get?
      other = some id at owner
    rw [owners, Keyed.get?_put] at owner
    split at owner
    · rename_i same
      obtain rfl := Option.some.inj owner
      exact ⟨script, same ▸ paid, rfl⟩
    · exact sound.owned other id owner
  · exact sound.contracts
  · exact sound.bounties
  · exact sound.issued
  · intro id held inBooks
    have before := sound.registered id held inBooks
    change ((books.ledger.put now script).2.register now script.id value outpoint).2.owners.get?
      held = some id
    rw [owners, Keyed.get?_put, if_neg]
    · exact before
    · rintro rfl
      rw [unowned] at before
      contradiction
  · intro id held inBooks
    by_cases same : id = script.id
    · rw [same]
      exact unredeemed
    · change (((books.ledger.put now script).2.register now script.id value outpoint).2.get
        id).status ≠ .redeemed
      rw [others id same]
      exact putSound.unredeemed id held inBooks

/-- Whatever output appears, the books stay sound. -/
theorem IsSound.pay
    (sound : books.IsSound pays)
    (chain : IsChain pays)
    {script : LockingScript}
    {outpoint : Outpoint}
    (paid : pays script outpoint)
    (now : Instant)
    (draw : α)
    (value : UInt64)
    (distinct : (books.pay now draw script value outpoint).2.addresses.NeverRepeats) :
    (books.pay now draw script value outpoint).2.IsSound pays := by
  have regular := (chain.built script outpoint paid).isRegular
  rcases books.pay_cases now draw script value outpoint with
    refused | known | ⟨_, new, ⟨_, ranked⟩ | ⟨_, accepted⟩⟩
  · rw [refused]
    exact sound
  · rw [known]
    exact sound.put now script
  · obtain ⟨recordedSound, _, owners, unredeemed⟩ := sound.recorded chain paid new
    rw [ranked] at distinct ⊢
    refine recordedSound.rankBounty rfl regular ?_ unredeemed draw distinct
    rw [owners, Keyed.get?_put]
    exact if_pos rfl
  · obtain ⟨recordedSound, _, owners, unredeemed⟩ := sound.recorded chain paid new
    rw [accepted]
    refine recordedSound.acceptContract rfl regular ?_ unredeemed
    rw [owners, Keyed.get?_put]
    exact if_pos rfl

/-- Whatever output is spent, the books stay sound. -/
theorem IsSound.spend
    (sound : books.IsSound pays)
    (draw : α)
    (outpoint : Outpoint)
    (spender : Digest) :
    (books.spend draw outpoint spender).2.IsSound pays := by
  have current := sound.current.redeem outpoint spender
  have indexed := sound.indexed.redeem outpoint spender
  have owners := books.ledger.owners_redeem outpoint spender
  have serving := sound.isServing.spend draw outpoint spender
  rcases books.spend_cases draw outpoint spender with
    unknown | ⟨id, others, ⟨unredeemed, spent⟩ | redeemed⟩
  · rw [unknown]
    exact sound
  · rw [spent]
    refine ⟨current, indexed, ?_, sound.contracts, sound.bounties, sound.issued, ?_, ?_⟩
    · rw [owners]
      exact sound.owned
    · rw [owners]
      exact sound.registered
    · intro other held inBooks
      by_cases same : other = id
      · rw [same]
        exact unredeemed
      · rw [others other same]
        exact sound.unredeemed other held inBooks
  · rw [redeemed] at serving ⊢
    have kept {other : Digest} {held : Outpoint}
        (inNext : Books.Holds
          { books with
            ledger := (books.ledger.redeem outpoint spender).2
            contracts := (books.contracts.remove id).2
            bounties := (books.bounties.remove id draw).2 } other held) :
        other ≠ id ∧ books.Holds other held := by
      rcases inNext with inContracts | inBounties
      · obtain ⟨different, before⟩ := ContractSchedule.of_holds_remove inContracts
        exact ⟨different, Or.inl before⟩
      · obtain ⟨different, before⟩ := sound.bounties.of_holds_remove inBounties
        exact ⟨different, Or.inr before⟩
    refine ⟨current, indexed, ?_, serving.contracts, serving.bounties, serving.issued, ?_, ?_⟩
    · rw [owners]
      exact sound.owned
    · rw [owners]
      exact fun other held inNext => sound.registered other held (kept inNext).2
    · intro other held inNext
      obtain ⟨different, before⟩ := kept inNext
      rw [others other different]
      exact sound.unredeemed other held before

end Soundness

section Memory

/-- Only an output that was not registered before is new to a schedule. -/
theorem IsSound.of_holds_pay
    (sound : books.IsSound pays)
    (chain : IsChain pays)
    {script : LockingScript}
    {outpoint : Outpoint}
    (paid : pays script outpoint)
    {now : Instant}
    {draw : α}
    {value : UInt64}
    (distinct : (books.pay now draw script value outpoint).2.addresses.NeverRepeats)
    {id : Digest}
    {held : Outpoint}
    (inNext : (books.pay now draw script value outpoint).2.Holds id held) :
    books.Holds id held ∨ books.ledger.owners.get? held = none := by
  have regular := (chain.built script outpoint paid).isRegular
  rcases books.pay_cases now draw script value outpoint with
    refused | known | ⟨_, new, ⟨_, ranked⟩ | ⟨_, accepted⟩⟩
  · rw [refused] at inNext
    exact Or.inl inNext
  · rw [known] at inNext
    exact Or.inl inNext
  · obtain ⟨recordedSound, unowned, _, _⟩ := sound.recorded chain paid new
    rw [ranked] at distinct inNext
    rcases recordedSound.of_holds_rankBounty rfl regular distinct inNext with
      before | ⟨_, isNew⟩
    · exact Or.inl before
    · exact Or.inr (isNew ▸ unowned)
  · obtain ⟨_, unowned, _, _⟩ := sound.recorded chain paid new
    rw [accepted] at inNext
    rcases of_holds_acceptContract inNext with before | ⟨_, isNew⟩
    · exact Or.inl before
    · exact Or.inr (isNew ▸ unowned)

/-- Spending adds no output to a schedule. -/
theorem IsSound.of_holds_spend
    (sound : books.IsSound pays)
    {draw : α}
    {outpoint : Outpoint}
    {spender : Digest}
    {id : Digest}
    {held : Outpoint}
    (inNext : (books.spend draw outpoint spender).2.Holds id held) :
    books.Holds id held := by
  rcases books.spend_cases draw outpoint spender with
    unknown | ⟨redeemed, _, ⟨_, kept⟩ | left⟩
  · rw [unknown] at inNext
    exact inNext
  · rw [kept] at inNext
    exact inNext
  · rw [left] at inNext
    exact inNext.imp (fun inContracts => (ContractSchedule.of_holds_remove inContracts).2)
      fun inBounties => (sound.bounties.of_holds_remove inBounties).2

end Memory

end Books
end WorkMarket
