import WorkMarket.Proofs.Pool.History

/-!
# Settlements are exact

A settlement is that of the listing whose job is finished.  It therefore holds
the outputs that were accepted since the script entered its queue, and with a
solution the address or the key that it was queued with.  Its outputs leave the
queue while the ledger remembers them, so that no other settlement has them.
-/

namespace WorkMarket

/-- Whether a settlement is what a listing and a solution make it. -/
structure Settlement.IsOf
    {α : Type}
    (settlement : Settlement α)
    (listing : Listing)
    (solution : Option Solution) : Prop where
  id_eq : settlement.id = listing.script.id
  kind_eq : settlement.kind = listing.script.kind
  solution_eq : settlement.solution = solution
  outpoints_eq : settlement.outpoints = listing.outpoints
  redeemAddress_eq : listing.script.kind = .bounty → solution.isSome = true →
    settlement.redeemAddress = some listing.address
  secret_eq : listing.script.kind = .contract → solution.isSome = true →
    settlement.secret = listing.secret

namespace Pool

variable {α : Type} [Scalar α] {pool start : Pool α}
  {pays : LockingScript → Outpoint → Prop}

section Completion

variable {listing : Listing} {draw : α} {id : Digest} {solution : Option Solution}
  {settlement : Settlement α} {next : Pool α}

/-- The outputs that are redeemed are the listed ones. -/
theorem redeemedOutpoints_eq
    (sound : pool.IsSound pays)
    (listed : pool.books.listing? listing.script = some listing) :
    pool.redeemedOutpoints listing.script.kind listing.script.id = listing.outpoints := by
  unfold redeemedOutpoints
  rcases Books.listing?_cases listed with ⟨kind, listed⟩ | ⟨kind, listed⟩
  · obtain ⟨contract, found, isListing⟩ := Option.map_eq_some_iff.mp listed
    rw [kind, ← isListing]
    rw [← isListing] at found
    simp only [found, Option.map_some, Option.getD_some]
    rfl
  · rw [kind]
    dsimp only
    rw [sound.books.bounties.outpoints_eq, listed]
    rfl

/-- The key for a contract at the front is that of its listing. -/
theorem secret_settlementOf
    (sound : pool.IsSound pays)
    (listed : pool.books.listing? listing.script = some listing)
    (offered : pool.books.Offers listing.script.id listing.job)
    (contract : listing.script.kind = .contract)
    (solved : solution.isSome = true) :
    (pool.settlementOf listing.script.id listing.job solution).secret = listing.secret := by
  have kind := (sound.books.of_listing? listed).1.kind_job.trans contract
  obtain ⟨front, isFront, named, _⟩ := sound.books.isServing.contractOffered offered kind
  have frontListed := ContractSchedule.listing?_of_front? isFront
  rw [Books.listing?_of_contract _ contract] at listed
  rw [named, listed] at frontListed
  unfold settlementOf
  dsimp only
  rw [if_pos ⟨kind, solved⟩, ContractSchedule.current?, isFront,
    Option.filter_some_pos (by simpa using named), Option.some.inj frontListed]
  rfl

/-- A settlement is that of the listing whose job is finished. -/
theorem isOf_settlementOf
    (sound : pool.IsSound pays)
    (listed : pool.books.listing? listing.script = some listing)
    (offered : pool.books.Offers listing.script.id listing.job)
    (solution : Option Solution) :
    (pool.settlementOf listing.script.id listing.job solution).IsOf listing solution where
  id_eq := rfl
  kind_eq := (sound.books.of_listing? listed).1.kind_job
  solution_eq := rfl
  outpoints_eq := by
    unfold settlementOf
    dsimp only
    rw [(sound.books.of_listing? listed).1.kind_job, redeemedOutpoints_eq sound listed]
  redeemAddress_eq := by
    intro bounty solved
    have listingSound := (sound.books.of_listing? listed).1
    unfold settlementOf
    dsimp only
    rw [if_pos ⟨listingSound.kind_job.trans bounty, solved⟩, listingSound.minerAddress_job]
  secret_eq := secret_settlementOf sound listed offered

/-- What is completed was listed.  It is settled as listed, the solution fits
its job, and it leaves its queue. -/
theorem IsSound.listed_of_complete
    (sound : pool.IsSound pays)
    (completed : pool.complete draw id solution = .ok (settlement, next)) :
    ∃ listing, pool.books.listing? listing.script = some listing ∧
      listing.script.id = id ∧ pool.books.Offers id listing.job ∧
      settlement.IsOf listing solution ∧
      next.books = retire pool.books draw id listing.job solution ∧
      ∀ found ∈ solution, (WorkProof.mk listing.job.puzzle found).isValid = true := by
  obtain ⟨job, completion, board, tracked, finished, equal⟩ := complete_cases completed
  have offered := sound.offered id job tracked
  obtain ⟨listing, listed, rfl, rfl⟩ := sound.books.listing?_of_offers offered
  have isOf := isOf_settlementOf sound listed offered solution
  obtain ⟨assignments, idle, settled⟩ := settlement_reassign completion.workers
    (pool.settlementOf listing.script.id listing.job solution)
    (pool.retired draw listing.script.id listing.job solution board)
  have books := books_reassign completion.workers
    (pool.settlementOf listing.script.id listing.job solution)
    (pool.retired draw listing.script.id listing.job solution board)
  rw [← equal] at settled books
  obtain rfl : settlement = _ := settled
  refine ⟨listing, listed, rfl, offered, ?_, books, ?_⟩
  · exact ⟨isOf.id_eq, isOf.kind_eq, isOf.solution_eq, isOf.outpoints_eq,
      isOf.redeemAddress_eq, isOf.secret_eq⟩
  · obtain ⟨entry, found, _, valid, _⟩ := WorkBoard.complete_cases finished
    have same : entry.job = listing.job := by
      obtain ⟨_, again, isJob⟩ := (WorkBoard.job?_eq_some_iff _ _ _).mp tracked
      rw [found] at again
      rw [Option.some.inj again, isJob]
    rw [← same]
    exact valid

end Completion

section Memory

variable {operation : Operation α} {outpoint : Outpoint}

/-- An output that the ledger remembers and no queue holds. -/
structure IsForgotten
    (pool : Pool α)
    (outpoint : Outpoint) : Prop where
  known : (pool.books.ledger.owners.get? outpoint).isSome = true
  unheld : ∀ id, ¬pool.books.Holds id outpoint

/-- What is forgotten does not come back by any one operation. -/
theorem IsForgotten.step
    (forgotten : pool.IsForgotten outpoint)
    (sound : pool.IsSound pays)
    (allowed : pool.IsChainStep pays operation) :
    (pool.step operation).IsForgotten outpoint where
  known := isSome_owner_step forgotten.known operation
  unheld := by
    intro id held
    rcases of_holds_step sound allowed held with before | unknown
    · exact forgotten.unheld id before
    · have known := forgotten.known
      rw [unknown] at known
      contradiction

/-- What is forgotten stays so. -/
theorem IsChainRun.isForgotten_run
    {settings : PoolSettings α}
    {addresses : AddressBook}
    {history earlier between later : List (Operation α)}
    (isRun : (fresh settings addresses).IsChainRun history)
    (split : history = earlier ++ between ++ later)
    (forgotten : ((fresh settings addresses).run earlier).IsForgotten outpoint) :
    ((fresh settings addresses).run (earlier ++ between)).IsForgotten outpoint := by
  induction between using List.reverseRecOn generalizing later with
  | nil =>
      rw [List.append_nil]
      exact forgotten
  | append_singleton between operation inductionHypothesis =>
      have splitHere : history = earlier ++ between ++ operation :: later := by
        rw [split]
        simp
      rw [← List.append_assoc, run_concat]
      exact (inductionHypothesis splitHere).step (isRun.isSound splitHere)
        (isRun.isChainStep splitHere)

/-- The outputs of a settlement are forgotten. -/
theorem IsSound.isForgotten_of_complete
    (sound : pool.IsSound pays)
    (exact : pool.books.IsExact pays)
    (names : NamesDiffer pays)
    {draw : α}
    {id : Digest}
    {solution : Option Solution}
    {settlement : Settlement α}
    {next : Pool α}
    (completed : pool.complete draw id solution = .ok (settlement, next))
    (present : outpoint ∈ settlement.outpoints) :
    next.IsForgotten outpoint := by
  obtain ⟨listing, listed, rfl, offered, isOf, books, _⟩ := sound.listed_of_complete completed
  rw [isOf.outpoints_eq] at present
  have owner := sound.books.registered _ outpoint (Books.holds_of_listing? listed present)
  constructor
  · rw [books, ledger_retire, owner]
    rfl
  · intro other held
    rw [books] at held
    obtain ⟨found, foundListed, rfl, inFound⟩ :=
      (isSound_retire sound.books draw listing.script.id listing.job solution).listing?_of_holds
        (isExact_retire sound.books exact offered draw solution) held
    rw [listing?_retire sound.books exact offered, Option.ite_none_left_eq_some] at foundListed
    obtain ⟨different, foundBefore⟩ := foundListed
    -- Both listings hold the output, so they are for the script it is registered for.
    have otherOwner :=
      sound.books.registered _ outpoint (Books.holds_of_listing? foundBefore inFound)
    rw [owner] at otherOwner
    obtain ⟨listingOutpoint, listingPaid⟩ := exact.paid_of_listing? listed
    obtain ⟨foundOutpoint, foundPaid⟩ := exact.paid_of_listing? foundBefore
    have listingSound := (sound.books.of_listing? listed).1
    have foundSound := (sound.books.of_listing? foundBefore).1
    have same : listing.script = found.script :=
      names _ _ listingOutpoint foundOutpoint listingPaid foundPaid listingSound.suited.1
        foundSound.suited.1 (Option.some.inj otherOwner)
    rw [← same] at different
    exact different ⟨listingSound.kind_job, rfl⟩

end Memory

section Exactness

variable {settings : PoolSettings α} {addresses : AddressBook}
  {history : List (Operation α)}

/-- A completion in a history that succeeds. -/
structure Settling
    (start : Pool α)
    (history : List (Operation α)) where
  earlier : List (Operation α)
  draw : α
  id : Digest
  solution : Option Solution
  later : List (Operation α)
  settlement : Settlement α
  next : Pool α
  split : history = earlier ++ .complete draw id solution :: later
  completed : (start.run earlier).complete draw id solution = .ok (settlement, next)

/-- Whether a completion settles the stay of a script in its queue: its outputs
are those that were accepted during the stay, and the address or the key is
that with which the stay began. -/
structure Settling.IsOfStay
    (settling : start.Settling history)
    (script : LockingScript)
    (before : List (Operation α))
    (entry : Operation α)
    (since : List (Operation α)) : Prop where
  id_eq : script.id = settling.id
  split : settling.earlier = before ++ entry :: since
  stays : start.Stays script before entry since
  settled : settling.settlement.id = settling.id ∧
    settling.settlement.kind = script.kind ∧ settling.settlement.solution = settling.solution
  outpoints_eq :
    settling.settlement.outpoints = arrivals script (start.run before) (entry :: since)
  outpoints_ne_nil : settling.settlement.outpoints ≠ []
  outpoints_nodup : settling.settlement.outpoints.Nodup
  left : settling.next.isQueued script = false
  bounty : script.kind = .bounty → ∀ found ∈ settling.solution, ∃ address,
    (start.run (before ++ [entry])).books.bounties.redeemAddress? script.id = some address ∧
      settling.settlement.redeemAddress = some address ∧
      (WorkProof.mk (Job.ofScript script address).puzzle found).isValid = true
  contract : script.kind = .contract → settling.solution.isSome = true → ∃ sale,
    LastOffered before script.id sale.secret ∧
      settling.settlement.secret = some sale.secret ∧
      Keyed.get? settling.next.books.sales script.id = some sale ∧ sale.status = .completed

/-- Whether every completion that succeeds settles a stay, and no two of them
share an output. -/
structure SettlesExactly
    (start : Pool α)
    (history : List (Operation α)) : Prop where
  settled : ∀ settling : start.Settling history, ∃ script before entry since,
    settling.IsOfStay script before entry since
  disjoint : ∀ first second : start.Settling history, first.earlier ≠ second.earlier →
    ∀ outpoint ∈ first.settlement.outpoints, outpoint ∉ second.settlement.outpoints

/-- The key of a contract that enters its queue is that of the last offer
before. -/
theorem IsChainRun.lastOffered_of_entered
    (isRun : (fresh settings addresses).IsChainRun history)
    {script : LockingScript}
    {before later : List (Operation α)}
    {entry : Operation α}
    {outpoint : Outpoint}
    {listing : Listing}
    (split : history = before ++ entry :: later)
    (entered : entry.Pays script outpoint)
    (contract : script.kind = .contract)
    (listed :
      ((fresh settings addresses).run (before ++ [entry])).books.listing? script = some listing) :
    ∃ secret, listing.secret = some secret ∧ LastOffered before script.id secret := by
  have exact : ((fresh settings addresses).run (before ++ [entry])).books.IsExact (Pays history) :=
    isRun.isExact (by rw [split, List.append_assoc, List.singleton_append])
  obtain ⟨sale, found, _, secret⟩ := exact.sale_of_listing? contract listed
  rw [run_concat] at found
  rcases sale_step found with ⟨_, _, _, rfl, _⟩ | ⟨_, earlier, foundBefore, same⟩
  · obtain ⟨_, _, _, ⟨⟩⟩ := entered
  · rw [same] at secret
    exact ⟨earlier.secret, secret, lastOffered_of_sale foundBefore⟩

/-- In the history of a chain a completion settles a stay. -/
theorem IsChainRun.exists_isOfStay
    (isRun : (fresh settings addresses).IsChainRun history)
    (settling : (fresh settings addresses).Settling history) :
    ∃ script before entry since, settling.IsOfStay script before entry since := by
  have sound := isRun.isSound settling.split
  have exact := isRun.isExact settling.split
  obtain ⟨listing, listed, named, offered, isOf, books, valid⟩ :=
    sound.listed_of_complete settling.completed
  obtain ⟨listingSound, _⟩ := sound.books.of_listing? listed
  obtain ⟨_, paid⟩ := exact.paid_of_listing? listed
  obtain ⟨before, entry, since, first, isEarlier, stays, arrived, entered, address, secret⟩ :=
    isRun.exists_stays paid listingSound.suited.1 settling.split listed
  refine ⟨listing.script, before, entry, since, named, isEarlier, stays,
    ⟨isOf.id_eq.trans named, isOf.kind_eq, isOf.solution_eq⟩, isOf.outpoints_eq.trans arrived,
    ?_, ?_, ?_, ?_, ?_⟩
  · rw [isOf.outpoints_eq]
    exact listingSound.outpoints_ne_nil
  · rw [isOf.outpoints_eq]
    exact listingSound.outpoints_nodup
  · rw [isQueued_eq (sound.complete settling.completed), books,
      listing?_retire sound.books exact offered, if_pos ⟨listingSound.kind_job, named.symm⟩]
    rfl
  · intro bounty found isSolution
    have solved : settling.solution.isSome = true := Option.isSome_of_mem isSolution
    rw [Books.listing?_of_bounty _ bounty] at entered
    refine ⟨listing.address, ?_, isOf.redeemAddress_eq bounty solved, valid found isSolution⟩
    rw [← address]
    exact BountySchedule.redeemAddress?_of_listing? entered
  · intro contract solved
    obtain ⟨outpoint, entryPays⟩ := stays.entered
    have split : history = before ++ entry :: (since ++ .complete settling.draw settling.id
        settling.solution :: settling.later) := by
      apply settling.split.trans
      rw [isEarlier, List.append_assoc, List.cons_append]
    obtain ⟨key, isKey, last⟩ := isRun.lastOffered_of_entered split entryPays contract entered
    obtain ⟨sale, found, _, isSecret⟩ := exact.sale_of_listing? contract listed
    have same : key = sale.secret := by
      rw [secret, isSecret] at isKey
      exact (Option.some.inj isKey).symm
    refine ⟨{ sale with status := .completed }, same ▸ last, ?_, ?_, rfl⟩
    · rw [isOf.secret_eq contract solved, isSecret]
    · rw [books, ← named]
      exact get?_retire_of_solved found (listingSound.kind_job.trans contract) solved

/-- In the history of a chain a completion leaves nothing to a later one. -/
theorem IsChainRun.disjoint_later
    (isRun : (fresh settings addresses).IsChainRun history)
    (first second : (fresh settings addresses).Settling history)
    {between : List (Operation α)}
    (isLater : second.earlier =
      first.earlier ++ .complete first.draw first.id first.solution :: between)
    {outpoint : Outpoint}
    (inFirst : outpoint ∈ first.settlement.outpoints) :
    outpoint ∉ second.settlement.outpoints := by
  intro inSecond
  have sound := isRun.isSound second.split
  obtain ⟨listing, listed, _, _, isOf, _, _⟩ := sound.listed_of_complete second.completed
  rw [isOf.outpoints_eq] at inSecond
  have held := Books.holds_of_listing? listed inSecond
  have forgotten := (isRun.isSound first.split).isForgotten_of_complete
    (isRun.isExact first.split) (isRun.isChainStep first.split).names first.completed inFirst
  rw [← step_of_completed first.completed, ← run_concat] at forgotten
  rw [List.append_cons] at isLater
  have stillForgotten := isRun.isForgotten_run (isLater ▸ second.split) forgotten
  rw [← isLater] at stillForgotten
  exact stillForgotten.unheld _ held

/-- Whatever happens to a fresh pool, it settles exactly, as long as the history
is that of a chain and no contract is offered while it is queued. -/
theorem run_settlesExactly
    (settings : PoolSettings α)
    (addresses : AddressBook)
    (history : List (Operation α))
    (isRun : (fresh settings addresses).IsChainRun history) :
    (fresh settings addresses).SettlesExactly history where
  settled := isRun.exists_isOfStay
  disjoint := by
    intro first second different outpoint inFirst
    rcases split_cases (first.split.symm.trans second.split) with
      ⟨same, _⟩ | ⟨between, isLater, _⟩ | ⟨between, isLater, _⟩
    · exact absurd same different
    · exact isRun.disjoint_later first second isLater inFirst
    · exact fun inSecond => isRun.disjoint_later second first isLater inSecond inFirst

/-- A bounty that almost every hash solves. -/
def easyBounty : LockingScript :=
  .bounty 0 Digest.absent .easiest [] 0 []

/-- A contract that almost every hash solves. -/
def easyContract : LockingScript :=
  .contract 0 Digest.absent .easiest [] 0 [] (FixedBytes.filled 20 9)

/-- A worker solves a contract, to which a second output comes meanwhile, and
then a bounty. -/
def bothSolved : List (Operation Rat) :=
  [.offer ⟨0, 0⟩ (Job.ofScript easyContract (FixedBytes.filled 20 9))
      ⟨FixedBytes.filled 32 3⟩ ⟨100, 0⟩,
    .pay ⟨1, 0⟩ 0 easyContract 70 ⟨FixedBytes.filled 32 1, 0⟩,
    .pay ⟨2, 0⟩ 0 easyBounty 50 ⟨FixedBytes.filled 32 2, 0⟩,
    .assign ⟨⟨7⟩, 1 / 1000000000000⟩,
    .pay ⟨3, 0⟩ 0 easyContract 70 ⟨FixedBytes.filled 32 3, 0⟩,
    .complete 0 easyContract.id (some ⟨0, 0, 0, 0⟩),
    .complete 0 easyBounty.id (some ⟨0, 0, 0, 0⟩)]

/-- The scripts hash differently, and the contract is offered before anything is
queued. -/
theorem isChainRun_bothSolved :
    (fresh PoolSettings.usual AddressBook.counting).IsChainRun bothSolved where
  chain := by
    apply isChain_of_shown
    · simp only [bothSolved, shown, List.map_cons, List.map_nil, List.forall_mem_cons]
      exact ⟨.contract .., .bounty .., .contract .., by simp⟩
    · decide +kernel
  addresses :=
    AddressBook.neverRepeats_of_counting (addressAt_run _ _)
      ((issued_run_le _ bothSolved).trans (by decide))
  noCollision := write_eq_of_shown (by decide +kernel)
  noOffer := by
    intro earlier operation later id secret split offer
    cases earlier with
    | nil => rfl
    | cons first earlier =>
        obtain ⟨now, job, expiresAt, rfl, _⟩ := offer
        have rest := (List.cons.inj split).2
        have offered : Operation.offer now job secret expiresAt ∈ bothSolved.tail := by
          rw [bothSolved, List.tail_cons, rest]
          exact List.mem_append_right _ List.mem_cons_self
        simp [bothSolved] at offered

/-- The contract is settled with both its outputs, and the bounty with its own. -/
theorem run_settlesExactly_bothSolved :
    (fresh PoolSettings.usual AddressBook.counting).IsChainRun bothSolved ∧
      (((fresh PoolSettings.usual AddressBook.counting).run (bothSolved.take 5)).complete 0
          easyContract.id (some ⟨0, 0, 0, 0⟩)).toOption.bind (fun contract =>
        (contract.2.complete 0 easyBounty.id (some ⟨0, 0, 0, 0⟩)).toOption.map fun bounty =>
          (contract.1.outpoints, bounty.1.outpoints)) =
        some ([⟨FixedBytes.filled 32 1, 0⟩, ⟨FixedBytes.filled 32 3, 0⟩],
          [⟨FixedBytes.filled 32 2, 0⟩]) ∧
      (fresh PoolSettings.usual AddressBook.counting).SettlesExactly bothSolved :=
  ⟨isChainRun_bothSolved, by decide +kernel,
    run_settlesExactly PoolSettings.usual AddressBook.counting bothSolved isChainRun_bothSolved⟩

end Exactness

end Pool
end WorkMarket
