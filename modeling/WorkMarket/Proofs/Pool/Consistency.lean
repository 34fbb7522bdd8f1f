import WorkMarket.Proofs.Market.BooksConsistency
import WorkMarket.Proofs.Pool.Service

/-!
# A pool stays consistent

The books and the board are stored apart.  They are in step if every job on the
board is one that the books offer under its name.  Each operation keeps them in
step, so every history does: what is tracked is queued, workers are on one job
each, outputs that are held are registered, and nothing redeemed is left.
-/

namespace WorkMarket
namespace Pool

variable {α : Type} [Scalar α] {pool : Pool α} {pays : LockingScript → Outpoint → Prop}

/-- The books and the board are in step. -/
structure IsSound
    (pays : LockingScript → Outpoint → Prop)
    (pool : Pool α) : Prop where
  books : pool.books.IsSound pays
  board : pool.board.IsSound
  offered : ∀ id job, pool.board.job? id = some job → pool.books.Offers id job

theorem isSound_fresh
    (pays : LockingScript → Outpoint → Prop)
    (settings : PoolSettings α)
    (addresses : AddressBook) :
    (fresh settings addresses).IsSound pays where
  books := Books.isSound_empty pays addresses settings.costs
  board := WorkBoard.isSound_empty settings.limits
  offered := by simp [fresh, WorkBoard.empty, WorkBoard.job?]

/-- Sound books serve. -/
theorem IsSound.isServing
    (sound : pool.IsSound pays) :
    pool.IsServing :=
  ⟨sound.books.isServing, sound.board, sound.offered⟩

section Completion

/-- Taking a finished job out of its queue adds no output. -/
theorem of_holds_retire
    {books : Books α}
    (sound : books.IsSound pays)
    {draw : α}
    {id other : Digest}
    {job : Job}
    {solution : Option Solution}
    {outpoint : Outpoint}
    (held : (retire books draw id job solution).Holds other outpoint) :
    books.Holds other outpoint := by
  unfold retire at held
  cases kind : job.kind with
  | invalid =>
      rw [kind] at held
      exact held
  | bounty =>
      rw [kind] at held
      rcases held with held | ⟨listing, listed, present⟩
      · exact Or.inl held
      · exact Or.inr ⟨listing, sound.bounties.of_listing?_finish listed, present⟩
  | contract =>
      rw [kind] at held
      exact held.imp_left ContractSchedule.of_holds_finish

/-- Taking a finished job out of its queue keeps the books sound. -/
theorem isSound_retire
    {books : Books α}
    (sound : books.IsSound pays)
    (draw : α)
    (id : Digest)
    (job : Job)
    (solution : Option Solution) :
    (retire books draw id job solution).IsSound pays := by
  have serving := isServing_retire sound.isServing draw id job solution
  have ledger := ledger_retire books draw id job solution
  constructor
  · rw [ledger]
    exact sound.current
  · rw [ledger]
    exact sound.indexed
  · rw [ledger]
    exact sound.owned
  · exact serving.contracts
  · exact serving.bounties
  · exact serving.issued
  · intro other outpoint held
    rw [ledger]
    exact sound.registered other outpoint (of_holds_retire sound held)
  · intro other outpoint held
    rw [ledger]
    exact sound.unredeemed other outpoint (of_holds_retire sound held)

/-- Whatever job is completed, the pool stays sound. -/
theorem IsSound.complete
    (sound : pool.IsSound pays)
    {draw : α}
    {id : Digest}
    {solution : Option Solution}
    {settlement : Settlement α}
    {next : Pool α}
    (completed : pool.complete draw id solution = .ok (settlement, next)) :
    next.IsSound pays := by
  have serving := sound.isServing.complete completed
  obtain ⟨job, _, books⟩ := books_complete completed
  refine ⟨?_, serving.board, serving.offered⟩
  rw [books]
  exact isSound_retire sound.books draw id job solution

end Completion

section Run

/-- One operation keeps the books sound. -/
theorem IsSound.books_step
    (sound : pool.IsSound pays)
    (chain : IsChain pays)
    {operation : Operation α}
    (paid : ∀ script outpoint, operation.Pays script outpoint → pays script outpoint)
    (distinct : (pool.step operation).books.addresses.NeverRepeats) :
    (pool.step operation).books.IsSound pays := by
  have changed := pool.booksStep operation
  generalize (pool.step operation).books = next at changed distinct ⊢
  cases changed with
  | pay now draw script value outpoint =>
      exact sound.books.pay chain (paid script outpoint ⟨now, draw, value, rfl⟩) now draw value
        distinct
  | spend draw outpoint spender => exact sound.books.spend draw outpoint spender
  | offer =>
      exact ⟨sound.books.current, sound.books.indexed, sound.books.owned, sound.books.contracts,
        sound.books.bounties, sound.books.issued, sound.books.registered, sound.books.unredeemed⟩
  | complete draw id solution job => exact isSound_retire sound.books draw id job solution
  | kept => exact sound.books

/-- One operation keeps books and board in step. -/
theorem IsSound.step
    (sound : pool.IsSound pays)
    (chain : IsChain pays)
    {operation : Operation α}
    (paid : ∀ script outpoint, operation.Pays script outpoint → pays script outpoint)
    (distinct : (pool.step operation).books.addresses.NeverRepeats) :
    (pool.step operation).IsSound pays := by
  have built script outpoint (isPaid : operation.Pays script outpoint) : script.IsBuilt :=
    chain.built script outpoint (paid script outpoint isPaid)
  have serving := sound.isServing.step built distinct
  exact ⟨sound.books_step chain paid distinct, serving.board, serving.offered⟩

/-- Every history keeps books and board in step. -/
theorem IsSound.run
    (sound : pool.IsSound pays)
    (chain : IsChain pays)
    {operations : List (Operation α)}
    (paid : ∀ script outpoint, Pays operations script outpoint → pays script outpoint)
    (distinct : (pool.run operations).books.addresses.NeverRepeats) :
    (pool.run operations).IsSound pays := by
  induction operations generalizing pool with
  | nil => exact sound
  | cons operation rest inductionHypothesis =>
      have next : (pool.step operation).IsSound pays :=
        sound.step chain
          (fun script outpoint isPaid =>
            paid script outpoint ⟨operation, List.mem_cons_self, isPaid⟩)
          (neverRepeats_of_run rest distinct)
      refine inductionHypothesis next ?_ distinct
      rintro script outpoint ⟨later, present, isPaid⟩
      exact paid script outpoint ⟨later, List.mem_cons_of_mem _ present, isPaid⟩

end Run

section Consistency

/-- What the ledger, both queues and the board have to do with each other. -/
structure IsConsistent (pool : Pool α) : Prop where
  /-- A job in progress is that of the contract at the front or of a ranked
  bounty, and stands under its name. -/
  tracked : ∀ id job, pool.board.job? id = some job →
    (∃ contract, pool.books.contracts.current? = some contract ∧
        contract.output.id = id ∧ contract.output.script.id = id ∧ job.kind = .contract ∧
        job = Job.ofScript contract.output.script contract.output.script.minerAddress) ∨
      ∃ entry address, pool.books.bounties.ranking.get? id = some entry ∧
        entry.script.id = id ∧ pool.books.bounties.redeemAddress? id = some address ∧
        job.kind = .bounty ∧ job = Job.ofScript entry.script address
  /-- No worker is on two jobs. -/
  exclusive : ∀ worker first second,
    worker ∈ (pool.board.workers first).map Waiting.worker →
    worker ∈ (pool.board.workers second).map Waiting.worker → first = second
  /-- Every job in progress has a worker. -/
  staffed : ∀ id, pool.board.contains id = true → pool.board.workers id ≠ []
  /-- Every output of a queued contract is registered under the script's
  name. -/
  contracts_registered : ∀ contract ∈ pool.books.contracts.queue.jobs,
    contract.output.id = contract.output.script.id ∧
      ∀ outpoint ∈ contract.outpoints,
        pool.books.ledger.owners.get? outpoint = some contract.output.script.id ∧
          outpoint ∈
            (pool.books.ledger.get contract.output.script.id).outputs.map OutputRecord.outpoint
  /-- Outputs are recorded for just the ranked bounties. -/
  bounties_recorded : ∀ id, pool.books.bounties.ranking.contains id = true ↔
    ∃ entry ∈ pool.books.bounties.ranking.entries, entry.id = id
  /-- Every output of a ranked bounty is registered under the script's name. -/
  bounties_registered : ∀ entry ∈ pool.books.bounties.ranking.entries,
    entry.id = entry.script.id ∧
      ∀ outpoint ∈ pool.books.bounties.ranking.outpoints entry.id,
        pool.books.ledger.owners.get? outpoint = some entry.script.id ∧
          outpoint ∈ (pool.books.ledger.get entry.script.id).outputs.map OutputRecord.outpoint
  /-- Nothing redeemed is queued. -/
  contracts_unredeemed : ∀ contract ∈ pool.books.contracts.queue.jobs,
    (pool.books.ledger.get contract.output.script.id).status ≠ .redeemed
  /-- Nothing redeemed is ranked. -/
  bounties_unredeemed : ∀ entry ∈ pool.books.bounties.ranking.entries,
    (pool.books.ledger.get entry.script.id).status ≠ .redeemed
  /-- Nothing redeemed is in progress. -/
  tracked_unredeemed : ∀ id, pool.board.contains id = true →
    (pool.books.ledger.get id).status ≠ .redeemed

/-- Soundness spelled out for the parts of a pool. -/
theorem IsSound.isConsistent
    (sound : pool.IsSound pays) :
    pool.IsConsistent := by
  have contractHolds {contract : ContractJob}
      (present : contract ∈ pool.books.contracts.queue.jobs)
      {outpoint : Outpoint}
      (listed : outpoint ∈ contract.outpoints) :
      pool.books.Holds contract.output.id outpoint :=
    Or.inl ⟨contract, present, rfl, listed⟩
  refine ⟨?_, ?_, ?_, ?_, sound.books.bounties.agrees.contains_iff, ?_, ?_, ?_, ?_⟩
  · intro id job tracked
    rcases sound.offered id job tracked with
      ⟨contract, front, rfl, rfl⟩ | ⟨listing, listed, rfl⟩
    · have present := ContractSchedule.mem_of_front? front
      exact Or.inl ⟨contract, front, rfl, (sound.books.contracts.sound contract present).id_eq,
        sound.books.contracts.kind_of_offers ⟨contract, front, rfl, rfl⟩, rfl⟩
    · have named := (sound.books.bounties.sound id listing listed).id_eq
      have kind := sound.books.bounties.kind_of_offers ⟨listing, listed, rfl⟩
      obtain ⟨entry, _, address, ranked, _, recorded, rfl⟩ :=
        (pool.books.bounties.listing?_eq_some_iff id listing).mp listed
      exact Or.inr ⟨entry, address, ranked, named, recorded, kind, rfl⟩
  · intro worker first second onFirst onSecond
    exact sound.board.exclusive first second worker
      ((pool.board.hasWorker_iff_mem_workers first worker).mpr onFirst)
      ((pool.board.hasWorker_iff_mem_workers second worker).mpr onSecond)
  · intro id tracked
    obtain ⟨entry, found⟩ := Option.isSome_iff_exists.mp tracked
    unfold WorkBoard.workers
    rw [found]
    exact fun empty => sound.board.staffed id entry found (List.map_eq_nil_iff.mp empty)
  · intro contract present
    have named := (sound.books.contracts.sound contract present).id_eq
    refine ⟨named.symm, fun outpoint listed => ?_⟩
    change contract.output.script.id = contract.output.id at named
    rw [named]
    have registered := sound.books.registered _ outpoint (contractHolds present listed)
    exact ⟨registered, sound.books.indexed outpoint _ registered⟩
  · intro entry present
    obtain ⟨outpoints, address, listed⟩ := sound.books.bounties.listing?_of_mem present
    have named : entry.script.id = entry.id :=
      (sound.books.bounties.sound entry.id _ listed).id_eq
    have recorded : pool.books.bounties.ranking.outpoints entry.id = outpoints := by
      rw [sound.books.bounties.outpoints_eq, listed]
      rfl
    refine ⟨named.symm, fun outpoint inEntry => ?_⟩
    rw [recorded] at inEntry
    rw [named]
    have registered := sound.books.registered _ outpoint (Or.inr ⟨_, listed, inEntry⟩)
    exact ⟨registered, sound.books.indexed outpoint _ registered⟩
  · intro contract present
    have listingSound := sound.books.contracts.sound contract present
    obtain ⟨outpoint, listed⟩ := List.exists_mem_of_ne_nil _ listingSound.outpoints_ne_nil
    have named : contract.output.script.id = contract.output.id := listingSound.id_eq
    rw [named]
    exact sound.books.unredeemed _ outpoint (contractHolds present listed)
  · intro entry present
    obtain ⟨_, address, listed⟩ := sound.books.bounties.listing?_of_mem present
    have listingSound := sound.books.bounties.sound entry.id _ listed
    obtain ⟨outpoint, inEntry⟩ := List.exists_mem_of_ne_nil _ listingSound.outpoints_ne_nil
    have named : entry.script.id = entry.id := listingSound.id_eq
    rw [named]
    exact sound.books.unredeemed _ outpoint (Or.inr ⟨_, listed, inEntry⟩)
  · intro id tracked
    obtain ⟨entry, found⟩ := Option.isSome_iff_exists.mp tracked
    exact sound.books.unredeemed_of_offers
      (sound.offered id entry.job ((WorkBoard.job?_eq_some_iff _ _ _).mpr ⟨entry, found, rfl⟩))

/-- Whatever happens to a fresh pool, it is consistent, as long as the history is
that of a chain and no address is handed out twice. -/
theorem run_isConsistent
    (settings : PoolSettings α)
    (addresses : AddressBook)
    (history : List (Operation α))
    (chain : IsChain (Pays history))
    (distinct :
      ((fresh settings addresses).run history).books.addresses.NeverRepeats) :
    ((fresh settings addresses).run history).IsConsistent :=
  ((isSound_fresh (Pays history) settings addresses).run chain (fun _ _ paid => paid)
    distinct).isConsistent

/-- A bounty of difficulty one. -/
def sampleBounty : LockingScript :=
  .bounty 0 Digest.absent ⟨0x1d00ffff⟩ [] 0 []

/-- A contract of difficulty one. -/
def sampleContract : LockingScript :=
  .contract 0 Digest.absent ⟨0x1d00ffff⟩ [] 0 [] (FixedBytes.filled 20 9)

/-- A worker takes up a bounty, and another one a contract that was offered. -/
def bothTakenUp : List (Operation Rat) :=
  [.pay ⟨0, 0⟩ 0 sampleBounty 50 ⟨FixedBytes.filled 32 1, 0⟩,
    .assign ⟨⟨7⟩, 1 / 100⟩,
    .offer ⟨1, 0⟩ (Job.ofScript sampleContract (FixedBytes.filled 20 9))
      ⟨FixedBytes.filled 32 3⟩ ⟨100, 0⟩,
    .pay ⟨2, 0⟩ 0 sampleContract 70 ⟨FixedBytes.filled 32 2, 0⟩,
    .assign ⟨⟨8⟩, 1 / 100⟩]

theorem isChain_bothTakenUp :
    IsChain (Pays bothTakenUp) := by
  apply isChain_of_shown
  · simp only [bothTakenUp, shown, List.map_cons, List.map_nil, List.forall_mem_cons]
    exact ⟨.bounty .., .contract .., by simp⟩
  · decide

/-- With two jobs in progress and a single address handed out the pool is
consistent. -/
theorem run_isConsistent_bothTakenUp :
    IsChain (Pays bothTakenUp) ∧
      ((fresh PoolSettings.usual AddressBook.counting).run
        bothTakenUp).books.addresses.NeverRepeats ∧
      ((fresh PoolSettings.usual AddressBook.counting).run bothTakenUp).board.jobs.size = 2 ∧
      ((fresh PoolSettings.usual AddressBook.counting).run bothTakenUp).IsConsistent := by
  have distinct : ((fresh PoolSettings.usual AddressBook.counting).run
      bothTakenUp).books.addresses.NeverRepeats :=
    AddressBook.neverRepeats_of_counting (addressAt_run _ _)
      ((issued_run_le _ bothTakenUp).trans (by decide))
  exact ⟨isChain_bothTakenUp, distinct, by decide +kernel,
    run_isConsistent PoolSettings.usual AddressBook.counting bothTakenUp isChain_bothTakenUp
      distinct⟩

end Consistency

end Pool
end WorkMarket
