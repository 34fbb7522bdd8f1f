import WorkMarket.Proofs.Market.BooksTracing
import WorkMarket.Proofs.Pool.Operations

/-!
# What a history leaves in ledger and queues

On a chain the books stay traced through every history, whatever addresses are
handed out.  An operation lists only outputs that the ledger did not know, and
the ledger forgets neither for which script it registered an output nor that it
was spent.
-/

namespace WorkMarket
namespace Pool

variable {α : Type} [Scalar α] {pool : Pool α} {pays : LockingScript → Outpoint → Prop}
  {operation : Operation α}

/-- Taking a finished job out of its queue lists nothing new. -/
theorem of_lists_retire
    {books : Books α}
    {draw : α}
    {id other : Digest}
    {job : Job}
    {solution : Option Solution}
    {outpoint : Outpoint}
    (listed : (retire books draw id job solution).Lists other outpoint) :
    books.Lists other outpoint := by
  unfold retire at listed
  cases kind : job.kind with
  | invalid =>
      rw [kind] at listed
      exact listed
  | bounty =>
      rw [kind] at listed
      refine listed.imp_right fun held => ?_
      dsimp only at held
      rcases books.bounties.ranking_finish job.puzzle draw with same | ⟨left, removed⟩
      · rw [same] at held
        exact held
      · rw [removed] at held
        exact (Ranking.of_holds_remove held).2
  | contract =>
      rw [kind] at listed
      exact listed.imp_left ContractSchedule.of_holds_finish

theorem isTraced_retire
    {books : Books α}
    (traced : books.IsTraced pays)
    (draw : α)
    (id : Digest)
    (job : Job)
    (solution : Option Solution) :
    (retire books draw id job solution).IsTraced pays := by
  have ledger := ledger_retire books draw id job solution
  refine ⟨ledger ▸ traced.ledger, ?_, ?_, ?_, ?_⟩
  · unfold retire
    cases job.kind with
    | invalid | bounty => exact traced.contracts
    | contract => exact traced.contracts.finish job.puzzle
  · unfold retire
    cases job.kind with
    | invalid | contract => exact traced.bounties
    | bounty => exact traced.bounties.finish job.puzzle draw
  · intro other outpoint listed
    rw [ledger]
    exact traced.registered other outpoint (of_lists_retire listed)
  · intro other outpoint listed
    rw [ledger]
    exact traced.unredeemed other outpoint (of_lists_retire listed)

section Steps

/-- One operation keeps the books traced. -/
theorem isTraced_step
    (traced : pool.books.IsTraced pays)
    (chain : IsChain pays)
    (paid : ∀ script outpoint, operation.Pays script outpoint → pays script outpoint) :
    (pool.step operation).books.IsTraced pays := by
  have changed := pool.booksStep operation
  generalize (pool.step operation).books = next at changed ⊢
  cases changed with
  | pay now draw script value outpoint =>
      exact traced.pay chain (paid script outpoint ⟨now, draw, value, rfl⟩) now draw value
  | spend draw outpoint spender => exact traced.spend draw outpoint spender
  | offer =>
      exact ⟨traced.ledger, traced.contracts, traced.bounties, traced.registered,
        traced.unredeemed⟩
  | complete draw id solution job => exact isTraced_retire traced draw id job solution
  | kept => exact traced

/-- What an operation newly lists is an output that the ledger did not know. -/
theorem of_lists_step
    (traced : pool.books.IsTraced pays)
    (chain : IsChain pays)
    (paid : ∀ script outpoint, operation.Pays script outpoint → pays script outpoint)
    {id : Digest}
    {outpoint : Outpoint}
    (listed : (pool.step operation).books.Lists id outpoint) :
    pool.books.Lists id outpoint ∨ pool.books.ledger.owners.get? outpoint = none := by
  have changed := pool.booksStep operation
  generalize (pool.step operation).books = next at changed listed
  cases changed with
  | pay now draw script value appeared =>
      exact traced.of_lists_pay chain (paid script appeared ⟨now, draw, value, rfl⟩) listed
  | spend => exact Or.inl (traced.of_lists_spend listed).1
  | offer => exact Or.inl listed
  | complete => exact Or.inl (of_lists_retire listed)
  | kept => exact Or.inl listed

/-- An output stays with the script that it was registered for. -/
theorem owner_step
    (traced : pool.books.IsTraced pays)
    (chain : IsChain pays)
    (paid : ∀ script outpoint, operation.Pays script outpoint → pays script outpoint)
    {outpoint : Outpoint}
    {id : Digest}
    (owned : pool.books.ledger.owners.get? outpoint = some id) :
    (pool.step operation).books.ledger.owners.get? outpoint = some id := by
  have changed := pool.booksStep operation
  generalize (pool.step operation).books = next at changed ⊢
  cases changed with
  | pay now draw script value appeared =>
      exact traced.owner_pay chain (paid script appeared ⟨now, draw, value, rfl⟩) owned now draw
        value
  | spend draw spent spender =>
      rw [Books.owners_spend]
      exact owned
  | offer => exact owned
  | complete draw finished solution job =>
      rw [ledger_retire]
      exact owned
  | kept => exact owned

/-- Only spending an output that the ledger knows changes who spent what. -/
theorem spender?_step
    (traced : pool.books.IsTraced pays)
    (chain : IsChain pays)
    (paid : ∀ script outpoint, operation.Pays script outpoint → pays script outpoint)
    (outpoint : Outpoint) :
    (pool.step operation).books.ledger.spender? outpoint =
        pool.books.ledger.spender? outpoint ∨
      ∃ draw spender, operation = .spend draw outpoint spender ∧
        (pool.books.ledger.owners.get? outpoint).isSome = true ∧
        (pool.step operation).books.ledger.spender? outpoint = some spender := by
  have changed := pool.booksStep operation
  generalize (pool.step operation).books = next at changed ⊢
  cases changed with
  | pay now draw script value appeared =>
      exact Or.inl (traced.spender?_pay chain (paid script appeared ⟨now, draw, value, rfl⟩) now
        draw value outpoint)
  | spend draw spent spender =>
      rw [Books.ledger_spend, traced.ledger.spender?_redeem]
      split
      · rename_i same
        obtain ⟨rfl, known⟩ := same
        exact Or.inr ⟨draw, spender, rfl, known, rfl⟩
      · exact Or.inl rfl
  | offer => exact Or.inl rfl
  | complete draw finished solution job =>
      rw [ledger_retire]
      exact Or.inl rfl
  | kept => exact Or.inl rfl

end Steps

section Runs

variable {operations : List (Operation α)}

/-- Every history of a chain keeps the books traced. -/
theorem isTraced_run
    (traced : pool.books.IsTraced pays)
    (chain : IsChain pays)
    (paid : ∀ script outpoint, Pays operations script outpoint → pays script outpoint) :
    (pool.run operations).books.IsTraced pays :=
  List.foldlRecOn (motive := fun pool => pool.books.IsTraced pays) operations step traced
    fun _ traced operation present => isTraced_step traced chain fun script outpoint isPaid =>
      paid script outpoint ⟨operation, present, isPaid⟩

/-- Through a history the ledger names the same spender of an output, or one
that the history reports. -/
theorem spender?_run
    (traced : pool.books.IsTraced pays)
    (chain : IsChain pays)
    (paid : ∀ script outpoint, Pays operations script outpoint → pays script outpoint)
    (outpoint : Outpoint) :
    (pool.run operations).books.ledger.spender? outpoint =
        pool.books.ledger.spender? outpoint ∨
      ∃ draw spender, .spend draw outpoint spender ∈ operations ∧
        (pool.run operations).books.ledger.spender? outpoint = some spender := by
  induction operations generalizing pool with
  | nil => exact Or.inl rfl
  | cons operation rest inductionHypothesis =>
      have paidFirst : ∀ script outpoint, operation.Pays script outpoint →
          pays script outpoint :=
        fun script outpoint isPaid =>
          paid script outpoint ⟨operation, List.mem_cons_self, isPaid⟩
      have paidRest : ∀ script outpoint, Pays rest script outpoint → pays script outpoint := by
        rintro script outpoint ⟨later, present, isPaid⟩
        exact paid script outpoint ⟨later, List.mem_cons_of_mem _ present, isPaid⟩
      change ((pool.step operation).run rest).books.ledger.spender? outpoint = _ ∨ _
      rcases inductionHypothesis (isTraced_step traced chain paidFirst) paidRest with
        same | ⟨draw, spender, present, marked⟩
      · rw [same]
        rcases spender?_step traced chain paidFirst outpoint with
          unchanged | ⟨draw, spender, rfl, _, marked⟩
        · exact Or.inl unchanged
        · exact Or.inr ⟨draw, spender, List.mem_cons_self, same.trans marked⟩
      · exact Or.inr ⟨draw, spender, List.mem_cons_of_mem _ present, marked⟩

variable {settings : PoolSettings α} {addresses : AddressBook}
  {history earlier later : List (Operation α)}

/-- The books are traced at every point of a history of a chain. -/
theorem isTraced_of_split
    (chain : IsChain (Pays history))
    (split : history = earlier ++ later) :
    ((fresh settings addresses).run earlier).books.IsTraced (Pays history) := by
  refine isTraced_run (Books.isTraced_empty _ addresses settings.costs) chain ?_
  rintro script outpoint ⟨operation, present, isPaid⟩
  exact ⟨operation, split ▸ List.mem_append_left later present, isPaid⟩

/-- Of an output that was registered and then spent, the ledger names the
spender, or one that was reported since. -/
theorem spender?_of_spent
    (chain : IsChain (Pays history))
    {before since : List (Operation α)}
    {draw : α}
    {outpoint : Outpoint}
    {spender : Digest}
    (split : history = before ++ .spend draw outpoint spender :: (since ++ later))
    (known : (((fresh settings addresses).run before).books.ledger.owners.get?
      outpoint).isSome = true) :
    ∃ last, (last = spender ∨ ∃ otherDraw, .spend otherDraw outpoint last ∈ since) ∧
      ((fresh settings addresses).run
        (before ++ .spend draw outpoint spender :: since)).books.ledger.spender? outpoint =
          some last := by
  have traced : ((fresh settings addresses).run before).books.IsTraced (Pays history) :=
    isTraced_of_split chain split
  have spent : (((fresh settings addresses).run before).step
      (.spend draw outpoint spender)).books.ledger.spender? outpoint = some spender := by
    change ((run _ before).spend draw outpoint spender).2.books.ledger.spender? outpoint = _
    rw [books_spend, Books.ledger_spend, traced.ledger.spender?_redeem, if_pos ⟨rfl, known⟩]
  have next := isTraced_step traced chain (pays_of_split split)
  have paid : ∀ script outpoint, Pays since script outpoint → Pays history script outpoint := by
    rintro script outpoint ⟨operation, present, isPaid⟩
    refine ⟨operation, split ▸ List.mem_append_right before ?_, isPaid⟩
    exact List.mem_cons_of_mem _ (List.mem_append_left later present)
  rw [run_append]
  rcases spender?_run next chain paid outpoint with same | ⟨otherDraw, last, present, marked⟩
  · exact ⟨spender, Or.inl rfl, same.trans spent⟩
  · exact ⟨last, Or.inr ⟨otherDraw, present⟩, marked⟩

end Runs

end Pool
end WorkMarket
