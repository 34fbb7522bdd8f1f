import WorkMarket.Proofs.Market.BooksService
import WorkMarket.Proofs.Pool.BoardSteps

/-!
# Workers are on jobs that the books offer

Whatever the ledger makes of the outputs, every job on the board is one that
the books offer under its name.  Where names do not collide a name offers one
job only, so a job that stays on the board stays the same.
-/

namespace WorkMarket

/-- What is selected is offered. -/
theorem Books.Selects.offers
    {α : Type}
    {books : Books α}
    {id : Digest}
    {job : Job}
    (selects : books.Selects id job)
    (serving : books.IsServing) :
    books.Offers id job :=
  selects.id_eq ▸ serving.offers_of_selected selects.selected selects.valid

namespace Pool

section Invariant

variable {α : Type} {pool next : Pool α}

/-- Every job on the board is one that the books offer under its name. -/
structure IsServing (pool : Pool α) : Prop where
  books : pool.books.IsServing
  board : pool.board.IsSound
  offered : ∀ id job, pool.board.job? id = some job → pool.books.Offers id job

/-- Where the books stay, it is enough that what comes to the board is selected. -/
theorem IsServing.of_selects
    (serving : pool.IsServing)
    (books : next.books = pool.books)
    (board : next.board.IsSound)
    (cases : ∀ id job, next.board.job? id = some job →
      pool.board.job? id = some job ∨ pool.books.Selects id job) :
    next.IsServing where
  books := books ▸ serving.books
  board := board
  offered := by
    intro id job tracked
    rw [books]
    rcases cases id job tracked with before | selects
    · exact serving.offered id job before
    · exact selects.offers serving.books

end Invariant

variable {α : Type} [Scalar α] {pool : Pool α} {operation : Operation α}

section Retirement

variable {books : Books α} {draw : α} {id : Digest} {job : Job} {solution : Option Solution}

/-- Whatever is listed after a finished job was retired was listed before. -/
theorem listing?_of_retire
    (serving : books.IsServing)
    {other : Digest}
    {listing : Listing}
    (listed : (retire books draw id job solution).bounties.listing? other = some listing) :
    books.bounties.listing? other = some listing := by
  unfold retire at listed
  cases kind : job.kind with
  | invalid | contract =>
      rw [kind] at listed
      exact listed
  | bounty =>
      rw [kind] at listed
      exact serving.bounties.of_listing?_finish listed

theorem isServing_retire
    (serving : books.IsServing)
    (draw : α)
    (id : Digest)
    (job : Job)
    (solution : Option Solution) :
    (retire books draw id job solution).IsServing where
  contracts := by
    unfold retire
    cases job.kind with
    | invalid | bounty => exact serving.contracts
    | contract => exact serving.contracts.finish job.puzzle
  bounties := by
    unfold retire
    cases job.kind with
    | invalid | contract => exact serving.bounties
    | bounty => exact serving.bounties.finish job.puzzle draw
  issued := by
    intro other listing listed
    have addresses : (retire books draw id job solution).addresses = books.addresses := by
      unfold retire
      cases job.kind <;> rfl
    rw [addresses]
    exact serving.issued other listing (listing?_of_retire serving listed)

theorem listsPaid_retire
    {pays : LockingScript → Outpoint → Prop}
    (listsPaid : books.ListsPaid pays)
    (serving : books.IsServing)
    (draw : α)
    (id : Digest)
    (job : Job)
    (solution : Option Solution) :
    (retire books draw id job solution).ListsPaid pays where
  contracts := by
    intro contract present
    refine listsPaid.contracts contract ?_
    unfold retire at present
    cases kind : job.kind with
    | invalid | bounty =>
        rw [kind] at present
        exact present
    | contract =>
        rw [kind] at present
        rcases books.contracts.queue_finish job.puzzle with same | tail
        · exact same ▸ present
        · exact List.mem_of_mem_tail (tail ▸ present)
  bounties := fun other listing listed =>
    listsPaid.bounties other listing (listing?_of_retire serving listed)

/-- Taking a finished job out of its queue changes no job of another name. -/
theorem offers_retire
    (serving : books.IsServing)
    (finished : books.Offers id job)
    {other : Digest}
    {otherJob : Job}
    (offered : books.Offers other otherJob)
    (different : other ≠ id)
    (draw : α)
    (solution : Option Solution) :
    (retire books draw id job solution).Offers other otherJob := by
  unfold retire
  cases kind : job.kind with
  | invalid => exact offered
  | bounty =>
      exact offered.imp_right fun offered =>
        serving.bounties.offers_finish (serving.bountyOffered finished kind) offered different draw
  | contract =>
      rcases offered with otherContract | otherBounty
      · exact absurd (otherContract.unique (serving.contractOffered finished kind)) different
      · exact Or.inr otherBounty

/-- A finished bounty is no longer offered. -/
theorem not_offers_retire
    (serving : books.IsServing)
    (finished : books.Offers id job)
    (bounty : job.kind = .bounty)
    (other : Job) :
    ¬(retire books draw id job solution).bounties.Offers id other := by
  obtain ⟨listing, listed, rfl⟩ := serving.bountyOffered finished bounty
  rintro ⟨_, otherListed, _⟩
  unfold retire at otherListed
  rw [bounty] at otherListed
  dsimp only at otherListed
  rw [serving.bounties.listing?_finish listed, if_pos rfl] at otherListed
  contradiction

end Retirement

theorem isServing_fresh
    (settings : PoolSettings α)
    (addresses : AddressBook) :
    (fresh settings addresses).IsServing where
  books := Books.isServing_empty addresses settings.costs
  board := WorkBoard.isSound_empty settings.limits
  offered := by simp [fresh, WorkBoard.empty, WorkBoard.job?]

section Steps

/-- One operation leaves books that serve, if what it shows was built. -/
theorem IsServing.books_step
    (serving : pool.IsServing)
    (built : ∀ script outpoint, operation.Pays script outpoint → script.IsBuilt)
    (distinct : (pool.step operation).books.addresses.NeverRepeats) :
    (pool.step operation).books.IsServing := by
  have changed := pool.booksStep operation
  generalize (pool.step operation).books = next at changed distinct ⊢
  cases changed with
  | pay now draw script value outpoint =>
      exact serving.books.pay (built script outpoint ⟨now, draw, value, rfl⟩).isRegular distinct
  | spend draw outpoint spender => exact serving.books.spend draw outpoint spender
  | offer => exact ⟨serving.books.contracts, serving.books.bounties, serving.books.issued⟩
  | complete draw id solution job => exact isServing_retire serving.books draw id job solution
  | kept => exact serving.books

/-- Whatever a worker is put on is offered. -/
theorem IsServing.assign
    (serving : pool.IsServing)
    (worker : Waiting α) :
    (pool.assign worker).2.IsServing :=
  serving.of_selects (pool.books_assign worker) (isSound_board_assign serving.board worker)
    fun _ _ => tracked_of_assign serving.board

/-- Whatever the workers of a finished job are put on is offered. -/
theorem IsServing.reassign
    (serving : pool.IsServing)
    (workers : List (Waiting α))
    (settlement : Settlement α) :
    (reassign workers settlement pool).2.IsServing :=
  serving.of_selects (books_reassign workers settlement pool)
    (isSound_board_reassign serving.board workers settlement)
    fun _ _ => tracked_of_reassign serving.board

/-- When a finished job leaves board and queue, the others are still offered. -/
theorem IsServing.retired
    (serving : pool.IsServing)
    (draw : α)
    {id : Digest}
    {job : Job}
    {solution : Option Solution}
    {completion : Completion α}
    {board : WorkBoard α}
    (tracked : pool.board.job? id = some job)
    (completed : pool.board.complete id solution = .ok (completion, board)) :
    (pool.retired draw id job solution board).IsServing where
  books := isServing_retire serving.books draw id job solution
  board := serving.board.complete completed
  offered := by
    intro other otherJob otherTracked
    obtain ⟨different, before⟩ := WorkBoard.job?_of_complete completed otherTracked
    exact offers_retire serving.books (serving.offered id job tracked)
      (serving.offered other otherJob before) different draw solution

/-- Whatever job is completed, the jobs on the board are offered. -/
theorem IsServing.complete
    (serving : pool.IsServing)
    {draw : α}
    {id : Digest}
    {solution : Option Solution}
    {settlement : Settlement α}
    {next : Pool α}
    (completed : pool.complete draw id solution = .ok (settlement, next)) :
    next.IsServing := by
  obtain ⟨job, completion, board, tracked, finished, equal⟩ := complete_cases completed
  have reassigned := (serving.retired draw tracked finished).reassign completion.workers
    (pool.settlementOf id job solution)
  rw [← equal] at reassigned
  exact reassigned

/-- One operation leaves only jobs on the board that the books offer. -/
theorem IsServing.step
    (serving : pool.IsServing)
    (built : ∀ script outpoint, operation.Pays script outpoint → script.IsBuilt)
    (distinct : (pool.step operation).books.addresses.NeverRepeats) :
    (pool.step operation).IsServing := by
  refine ⟨serving.books_step built distinct, isSound_board_step serving.board operation, ?_⟩
  intro id job tracked
  cases operation with
  | pay now draw script value outpoint =>
      exact serving.books.offers_pay (built script outpoint ⟨now, draw, value, rfl⟩).isRegular
        distinct (serving.offered id job tracked)
  | spend draw outpoint spender =>
      obtain ⟨before, other⟩ := tracked_of_spend tracked
      change (pool.spend draw outpoint spender).2.books.Offers id job
      rw [books_spend]
      exact serving.books.offers_spend other (serving.offered id job before)
  | offer now offeredJob secret expiresAt =>
      obtain ⟨_, stepped⟩ := pool.step_offer now offeredJob secret expiresAt
      rw [stepped] at tracked ⊢
      exact serving.offered id job tracked
  | assign worker => exact (serving.assign worker).offered id job tracked
  | release worker => exact serving.offered id job (serving.board.job?_of_release tracked)
  | complete draw finished solution =>
      rcases pool.step_complete_cases draw finished solution with
        refused | ⟨_, _, completed, stepped⟩
      · rw [refused] at tracked ⊢
        exact serving.offered id job tracked
      · rw [stepped] at tracked ⊢
        exact (serving.complete completed).offered id job tracked
  | rearrange arrangement =>
      exact serving.offered id job (tracked_of_rearrange serving.board tracked)

variable {pays : LockingScript → Outpoint → Prop}

/-- One operation lists only scripts that were paid. -/
theorem IsServing.listsPaid_step
    (serving : pool.IsServing)
    (listsPaid : pool.books.ListsPaid pays)
    (built : ∀ script outpoint, operation.Pays script outpoint → script.IsBuilt)
    (paid : ∀ script outpoint, operation.Pays script outpoint → pays script outpoint)
    (distinct : (pool.step operation).books.addresses.NeverRepeats) :
    (pool.step operation).books.ListsPaid pays := by
  have changed := pool.booksStep operation
  generalize (pool.step operation).books = next at changed distinct ⊢
  cases changed with
  | pay now draw script value outpoint =>
      have shows : (Operation.pay now draw script value outpoint).Pays script outpoint :=
        ⟨now, draw, value, rfl⟩
      exact listsPaid.pay serving.books (built script outpoint shows).isRegular
        (paid script outpoint shows) distinct
  | spend draw outpoint spender => exact listsPaid.spend serving.books draw outpoint spender
  | offer => exact ⟨listsPaid.contracts, listsPaid.bounties⟩
  | complete draw id solution job =>
      exact listsPaid_retire listsPaid serving.books draw id job solution
  | kept => exact listsPaid

end Steps

section Stability

variable {pays : LockingScript → Outpoint → Prop} {id : Digest} {job later : Job}

/-- A job that is on the board before and after a completion is the same. -/
theorem IsServing.job?_complete
    (serving : pool.IsServing)
    (listsPaid : pool.books.ListsPaid pays)
    (names : NamesDiffer pays)
    {draw : α}
    {finished : Digest}
    {solution : Option Solution}
    {settlement : Settlement α}
    {next : Pool α}
    (completed : pool.complete draw finished solution = .ok (settlement, next))
    (before : pool.board.job? id = some job)
    (after : next.board.job? id = some later) :
    later = job := by
  rcases tracked_of_complete serving.board completed after with ⟨_, still⟩ | selects
  · rw [before] at still
    exact (Option.some.inj still).symm
  · -- The job came to the board anew, from books that the finished one has left.
    have nextServing := serving.complete completed
    have offered := selects.offers nextServing.books
    obtain ⟨finishedJob, tracked, books⟩ := Pool.books_complete completed
    have nextPaid : next.books.ListsPaid pays := by
      rw [books]
      exact listsPaid_retire listsPaid serving.books draw finished finishedJob solution
    by_cases same : id = finished
    · subst same
      obtain rfl : finishedJob = job := Option.some.inj (tracked.symm.trans before)
      obtain ⟨sameKind, sameContract⟩ := serving.books.offers_agree listsPaid nextServing.books
        nextPaid names (serving.offered id finishedJob before) offered
      rcases serving.offered id finishedJob before with contract | bounty
      · exact (sameContract (serving.books.contracts.kind_of_offers contract)).symm
      · have kind := serving.books.bounties.kind_of_offers bounty
        have stillOffered := nextServing.books.bountyOffered offered (sameKind.symm.trans kind)
        rw [books] at stillOffered
        exact absurd stillOffered (not_offers_retire serving.books (Or.inr bounty) kind later)
    · have kept := offers_retire serving.books (serving.offered finished finishedJob tracked)
        (serving.offered id job before) same draw solution
      rw [← books] at kept
      exact nextServing.books.offers_unique nextPaid names offered kept

/-- A job that is on the board before and after an operation is the same. -/
theorem IsServing.job?_step
    (serving : pool.IsServing)
    (listsPaid : pool.books.ListsPaid pays)
    (names : NamesDiffer pays)
    (before : pool.board.job? id = some job)
    (after : (pool.step operation).board.job? id = some later) :
    later = job := by
  have same (still : pool.board.job? id = some later) : later = job :=
    Option.some.inj (still.symm.trans before)
  cases operation with
  | pay => exact same after
  | spend draw outpoint spender => exact same (tracked_of_spend after).1
  | offer now offeredJob secret expiresAt =>
      obtain ⟨_, stepped⟩ := pool.step_offer now offeredJob secret expiresAt
      rw [stepped] at after
      exact same after
  | assign worker =>
      rcases tracked_of_assign serving.board after with still | selects
      · exact same still
      · exact serving.books.offers_unique listsPaid names (selects.offers serving.books)
          (serving.offered id job before)
  | release worker => exact same (serving.board.job?_of_release after)
  | complete draw finished solution =>
      rcases pool.step_complete_cases draw finished solution with
        refused | ⟨_, _, completed, stepped⟩
      · rw [refused] at after
        exact same after
      · rw [stepped] at after
        exact serving.job?_complete listsPaid names completed before after
  | rearrange arrangement => exact same (tracked_of_rearrange serving.board after)

end Stability

end Pool
end WorkMarket
