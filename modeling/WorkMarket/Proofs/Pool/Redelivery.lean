import WorkMarket.Proofs.Market.KnownEvents
import WorkMarket.Proofs.Pool.BoardSteps
import WorkMarket.Proofs.Pool.Consistency
import WorkMarket.Proofs.Pool.Tracing

/-!
# Events that come again

A chain may report an output or its spending more than once.  The books know
both then and stay as they are.  A script that is redeemed by now is not in
progress either, so nobody is freed a second time.
-/

namespace WorkMarket

/-- What the books select is not redeemed. -/
theorem Books.IsTraced.unredeemed_of_selects
    {α : Type}
    [Scalar α]
    {books : Books α}
    {pays : LockingScript → Outpoint → Prop}
    (traced : books.IsTraced pays)
    {id : Digest}
    {job : Job}
    (selects : books.Selects id job) :
    (books.ledger.get id).status ≠ .redeemed := by
  intro redeemed
  obtain ⟨unqueued, unranked⟩ := traced.unqueued_of_redeemed redeemed
  obtain ⟨valid, rfl, rfl | rfl⟩ := selects
  · rw [ContractSchedule.contains_of_offers (traced.contracts.offers_selected valid)] at unqueued
    contradiction
  · rw [traced.bounties.contains_selected valid] at unranked
    contradiction

namespace Pool

variable {α : Type} [Scalar α] {pool start : Pool α} {pays : LockingScript → Outpoint → Prop}
  {operation : Operation α}

/-- Traced books, and a board on which no job is redeemed. -/
structure IsCleared
    (pays : LockingScript → Outpoint → Prop)
    (pool : Pool α) : Prop where
  books : pool.books.IsTraced pays
  board : pool.board.IsSound
  unredeemed : ∀ id job, pool.board.job? id = some job →
    (pool.books.ledger.get id).status ≠ .redeemed

theorem isCleared_fresh
    (pays : LockingScript → Outpoint → Prop)
    (settings : PoolSettings α)
    (addresses : AddressBook) :
    (fresh settings addresses).IsCleared pays where
  books := Books.isTraced_empty pays addresses settings.costs
  board := WorkBoard.isSound_empty settings.limits
  unredeemed := by simp [fresh, WorkBoard.empty, WorkBoard.job?]

section Steps

/-- Whatever is redeemed comes off the board. -/
theorem IsCleared.unredeemed_spend
    (cleared : pool.IsCleared pays)
    {draw : α}
    {outpoint : Outpoint}
    {spender : Digest}
    {id : Digest}
    {job : Job}
    (tracked : (pool.spend draw outpoint spender).2.board.job? id = some job) :
    ((pool.books.spend draw outpoint spender).2.ledger.get id).status ≠ .redeemed := by
  obtain ⟨before, still⟩ := tracked_of_spend tracked
  have unredeemed := cleared.unredeemed id job before
  rw [Books.ledger_spend]
  rcases cleared.books.spend_cases draw outpoint spender with
    ⟨_, unknown⟩ | ⟨owner, _, others, ⟨partly, _⟩ | ⟨_, left⟩⟩
  · rw [← Books.ledger_spend _ draw, unknown]
    exact unredeemed
  · by_cases same : id = owner
    · rw [same]
      exact partly
    · rw [others id same]
      exact unredeemed
  · rw [others id]
    · exact unredeemed
    · rintro rfl
      rw [left] at still
      exact still rfl

/-- Every operation leaves nothing redeemed on the board. -/
theorem IsCleared.step
    (cleared : pool.IsCleared pays)
    (chain : IsChain pays)
    (paid : ∀ script outpoint, operation.Pays script outpoint → pays script outpoint) :
    (pool.step operation).IsCleared pays := by
  have books := isTraced_step cleared.books chain paid
  have board := isSound_board_step cleared.board operation
  refine ⟨books, board, ?_⟩
  intro id job tracked
  cases operation with
  | pay now draw script value outpoint =>
      exact fun redeemed => cleared.unredeemed id job tracked
        (cleared.books.redeemed_of_pay redeemed)
  | spend draw outpoint spender =>
      change ((pool.spend draw outpoint spender).2.books.ledger.get id).status ≠ .redeemed
      rw [books_spend]
      exact cleared.unredeemed_spend tracked
  | offer now job secret expiresAt =>
      obtain ⟨_, stepped⟩ := pool.step_offer now job secret expiresAt
      rw [stepped] at tracked ⊢
      exact cleared.unredeemed _ _ tracked
  | assign worker =>
      change ((pool.assign worker).2.books.ledger.get id).status ≠ .redeemed
      rw [books_assign]
      rcases tracked_of_assign cleared.board tracked with before | selects
      · exact cleared.unredeemed id job before
      · exact cleared.books.unredeemed_of_selects selects
  | release worker => exact cleared.unredeemed id job (cleared.board.job?_of_release tracked)
  | complete draw finished solution =>
      rcases pool.step_complete_cases draw finished solution with
        refused | ⟨_, next, completed, stepped⟩
      · rw [refused] at tracked ⊢
        exact cleared.unredeemed id job tracked
      · rw [stepped] at tracked books ⊢
        rcases tracked_of_complete cleared.board completed tracked with ⟨_, before⟩ | selects
        · obtain ⟨_, _, isBooks⟩ := books_complete completed
          rw [isBooks, ledger_retire]
          exact cleared.unredeemed id job before
        · exact books.unredeemed_of_selects selects
  | rearrange arrangement =>
      exact cleared.unredeemed id job (tracked_of_rearrange cleared.board tracked)

/-- The ledger forgets neither scripts nor outputs. -/
theorem knows_step
    (traced : pool.books.IsTraced pays)
    (chain : IsChain pays)
    (paid : ∀ script outpoint, operation.Pays script outpoint → pays script outpoint)
    {script : LockingScript}
    {outpoint : Outpoint}
    (knows : pool.books.ledger.Knows script outpoint) :
    (pool.step operation).books.ledger.Knows script outpoint := by
  intro valid outpointValid
  obtain ⟨entry, owner⟩ := knows valid outpointValid
  refine ⟨?_, fun named => owner_step traced chain paid (owner named)⟩
  have changed := pool.booksStep operation
  generalize (pool.step operation).books = next at changed ⊢
  cases changed with
  | pay now draw shown value appeared =>
      have put := Ledger.isSome_entry_put_of_isSome entry now shown
      rcases pool.books.ledger_pay now draw shown value appeared with same | isPut | ⟨_, recorded⟩
      · rw [same]
        exact entry
      · rw [isPut]
        exact put
      · rw [recorded]
        exact Ledger.isSome_entry_register put now value appeared
  | spend draw spent spender =>
      rw [Books.ledger_spend]
      exact Ledger.isSome_entry_redeem entry spent spender
  | offer => exact entry
  | complete draw finished solution job =>
      rw [ledger_retire]
      exact entry
  | kept => exact entry

/-- Spending again what the same transaction spent changes nothing and frees
nobody. -/
theorem IsCleared.spend_of_spent
    (cleared : pool.IsCleared pays)
    {outpoint : Outpoint}
    {spender : Digest}
    (spent : pool.books.ledger.spender? outpoint = some spender)
    (draw : α) :
    pool.spend draw outpoint spender = ([], pool) := by
  obtain ⟨same, redeemed⟩ := cleared.books.spend_of_spent spent draw
  rcases pool.spend_cases draw outpoint spender with
    ⟨_, kept⟩ | ⟨id, completion, board, answer, completed, _⟩
  · rw [kept, same]
  · obtain ⟨tracked, found, _⟩ := WorkBoard.complete_cases completed
    exact absurd (redeemed id answer) (cleared.unredeemed id tracked.job
      ((WorkBoard.job?_eq_some_iff _ _ _).mpr ⟨tracked, found, rfl⟩))

end Steps

section Histories

variable {settings : PoolSettings α} {addresses : AddressBook} {history : List (Operation α)}

/-- Whether whatever a history has brought changes nothing when it comes
again: an output, or the last spending that was reported of an output. -/
structure IsIdempotent
    (start : Pool α)
    (history : List (Operation α)) : Prop where
  paid : ∀ script outpoint, Pays history script outpoint → ∀ now draw value,
    (start.run history).pay now draw script value outpoint = (.invalid, start.run history)
  spent : ∀ before draw outpoint spender since,
    history = before ++ .spend draw outpoint spender :: since →
    ((start.run before).books.ledger.owners.get? outpoint).isSome = true →
    (∀ otherDraw other, .spend otherDraw outpoint other ∈ since → other = spender) →
    ∀ again, (start.run history).spend again outpoint spender = ([], start.run history)

/-- After a history of a chain nothing redeemed is on the board. -/
theorem isCleared_run
    (chain : IsChain (Pays history)) :
    ((fresh settings addresses).run history).IsCleared (Pays history) :=
  List.foldlRecOn (motive := IsCleared (Pays history)) history step
    (isCleared_fresh _ settings addresses) fun _ cleared operation present =>
      cleared.step chain fun _ _ isPaid => ⟨operation, present, isPaid⟩

/-- What appeared stays known. -/
theorem knows_run
    (chain : IsChain (Pays history))
    {script : LockingScript}
    {outpoint : Outpoint}
    (paid : Pays history script outpoint) :
    ((fresh settings addresses).run history).books.ledger.Knows script outpoint := by
  obtain ⟨operation, present, now, draw, value, rfl⟩ := paid
  obtain ⟨before, since, split⟩ := List.append_of_mem present
  have tracedBefore : ((fresh settings addresses).run before).books.IsTraced (Pays history) :=
    isTraced_of_split chain split
  have traced := isTraced_step tracedBefore chain (pays_of_split split)
  have known := Books.knows_pay ((fresh settings addresses).run before).books now draw script value
    outpoint
  have kept : ((((fresh settings addresses).run before).step
      (.pay now draw script value outpoint)).run since).books.IsTraced (Pays history) ∧
      ((((fresh settings addresses).run before).step
        (.pay now draw script value outpoint)).run since).books.ledger.Knows script outpoint := by
    refine List.foldlRecOn
      (motive := fun pool => pool.books.IsTraced (Pays history) ∧
        pool.books.ledger.Knows script outpoint) since step ⟨traced, known⟩ ?_
    rintro pool ⟨traced, knows⟩ operation inSince
    have isPaid : ∀ script outpoint, operation.Pays script outpoint →
        Pays history script outpoint := fun script outpoint isPaid =>
      ⟨operation, split ▸ List.mem_append_right before (List.mem_cons_of_mem _ inSince), isPaid⟩
    exact ⟨isTraced_step traced chain isPaid, knows_step traced chain isPaid knows⟩
  have ends : (fresh settings addresses).run history =
      (((fresh settings addresses).run before).step
        (.pay now draw script value outpoint)).run since := by
    rw [split]
    exact run_append _ before _
  rw [ends]
  exact kept.2

/-- Whatever a chain has brought to a fresh pool changes nothing when it comes
again. -/
theorem run_isIdempotent
    (settings : PoolSettings α)
    (addresses : AddressBook)
    (history : List (Operation α))
    (chain : IsChain (Pays history))
    (noCollision : ∀ script other outpoint otherOutpoint, Pays history script outpoint →
      Pays history other otherOutpoint → hash256 script.write = hash256 other.write →
      script.write = other.write) :
    (fresh settings addresses).IsIdempotent history where
  paid := by
    intro script outpoint paid now draw value
    have cleared : ((fresh settings addresses).run history).IsCleared (Pays history) :=
      isCleared_run chain
    have names := namesDiffer_of_built chain.built noCollision
    unfold Pool.pay
    rw [cleared.books.pay_of_knows names paid (knows_run chain paid) now draw value]
  spent := by
    intro before draw outpoint spender since split known latest again
    have cleared : ((fresh settings addresses).run history).IsCleared (Pays history) :=
      isCleared_run chain
    have atEnd : history = before ++ .spend draw outpoint spender :: (since ++ []) := by
      rw [List.append_nil]
      exact split
    obtain ⟨last, isLast, spent⟩ := spender?_of_spent chain atEnd known
    obtain rfl : last = spender :=
      isLast.elim (fun same => same) fun ⟨otherDraw, present⟩ => latest otherDraw last present
    rw [← split] at spent
    exact cleared.spend_of_spent spent again

/-- A bounty with two outputs is worked on, and both outputs are spent. -/
def whollySpent : List (Operation Rat) :=
  [.pay ⟨0, 0⟩ 0 sampleBounty 50 ⟨FixedBytes.filled 32 1, 0⟩,
    .pay ⟨1, 0⟩ 0 sampleBounty 50 ⟨FixedBytes.filled 32 2, 0⟩,
    .assign ⟨⟨7⟩, 1 / 100⟩,
    .spend 0 ⟨FixedBytes.filled 32 1, 0⟩ (FixedBytes.filled 32 4),
    .spend 0 ⟨FixedBytes.filled 32 2, 0⟩ (FixedBytes.filled 32 5)]

theorem isChain_whollySpent :
    IsChain (Pays whollySpent) := by
  apply isChain_of_shown
  · simp only [whollySpent, shown, List.map_cons, List.map_nil, List.forall_mem_cons]
    exact ⟨.bounty .., .bounty .., by simp⟩
  · decide

/-- The last spending frees the worker; were it reported again, it would free
nobody. -/
theorem run_isIdempotent_whollySpent :
    IsChain (Pays whollySpent) ∧
      (∀ script other outpoint otherOutpoint, Pays whollySpent script outpoint →
        Pays whollySpent other otherOutpoint → hash256 script.write = hash256 other.write →
        script.write = other.write) ∧
      (((fresh PoolSettings.usual AddressBook.counting).run (whollySpent.take 4)).spend 0
        ⟨FixedBytes.filled 32 2, 0⟩ (FixedBytes.filled 32 5)).1 = [⟨⟨7⟩, 1 / 100⟩] ∧
      (fresh PoolSettings.usual AddressBook.counting).IsIdempotent whollySpent :=
  ⟨isChain_whollySpent, write_eq_of_shown (by simp [whollySpent, shown]), by decide +kernel,
    run_isIdempotent PoolSettings.usual AddressBook.counting whollySpent isChain_whollySpent
      (write_eq_of_shown (by simp [whollySpent, shown]))⟩

end Histories

end Pool
end WorkMarket
