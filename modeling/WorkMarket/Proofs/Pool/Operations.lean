import WorkMarket.Market.Pool
import WorkMarket.Proofs.Market.BoardWorkers
import WorkMarket.Proofs.Market.BooksEvents
import WorkMarket.Proofs.Market.Promises

/-!
# What an operation does to a pool

Workers that come and go, and another order of the jobs, touch the board alone.
An offer that is not refused enters a sale, and a completion that is not refused
takes its job off the board and out of its queue.  `BooksStep` is what is left of
all this for the books.
-/

namespace WorkMarket
namespace Pool

section Operations

variable {α : Type} {pool : Pool α}

/-- Whether an operation shows an output of a script. -/
def Operation.Pays
    (operation : Operation α)
    (script : LockingScript)
    (outpoint : Outpoint) : Prop :=
  ∃ now draw value, operation = .pay now draw script value outpoint

/-- Whether a history shows an output of a script. -/
def Pays
    (history : List (Operation α))
    (script : LockingScript)
    (outpoint : Outpoint) : Prop :=
  ∃ operation ∈ history, operation.Pays script outpoint

/-- What an operation of a history shows, the history shows. -/
theorem pays_of_split
    {operation : Operation α}
    {history earlier later : List (Operation α)}
    (split : history = earlier ++ operation :: later)
    (script : LockingScript)
    (outpoint : Outpoint)
    (paid : operation.Pays script outpoint) :
    Pays history script outpoint :=
  ⟨operation, split ▸ List.mem_append_right earlier List.mem_cons_self, paid⟩

/-- The outputs that a history shows, each with its script. -/
def shown : List (Operation α) → List (LockingScript × Outpoint)
  | [] => []
  | .pay _ _ script _ outpoint :: rest => (script, outpoint) :: shown rest
  | .spend _ _ _ :: rest | .offer _ _ _ _ :: rest | .assign _ :: rest | .release _ :: rest
  | .complete _ _ _ :: rest | .rearrange _ :: rest => shown rest

theorem mem_shown_of_pays
    {history : List (Operation α)}
    {script : LockingScript}
    {outpoint : Outpoint}
    (paid : Pays history script outpoint) :
    (script, outpoint) ∈ shown history := by
  obtain ⟨_, present, now, draw, value, rfl⟩ := paid
  induction history with
  | nil => contradiction
  | cons operation rest inductionHypothesis =>
      rcases List.mem_cons.mp present with rfl | later
      · exact List.mem_cons_self
      · have inRest := inductionHypothesis later
        cases operation with
        | pay => exact List.mem_cons_of_mem _ inRest
        | spend | offer | assign | release | complete | rearrange => exact inRest

/-- A chain can be told from the outputs that are shown. -/
theorem isChain_of_shown
    {history : List (Operation α)}
    (built : ∀ script ∈ (shown history).map Prod.fst, script.IsBuilt)
    (oneScript : ∀ output ∈ shown history, ∀ other ∈ shown history,
      output.2 = other.2 → output.1 = other.1) :
    IsChain (Pays history) where
  built := fun _ _ paid => built _ (List.mem_map_of_mem (mem_shown_of_pays paid))
  oneScript := fun _ _ _ paid otherPaid =>
    oneScript _ (mem_shown_of_pays paid) _ (mem_shown_of_pays otherPaid) rfl

/-- So can whether the scripts of a chain hash differently. -/
theorem write_eq_of_shown
    {history : List (Operation α)}
    (separate : ∀ output ∈ shown history, ∀ other ∈ shown history,
      hash256 output.1.write = hash256 other.1.write → output.1.write = other.1.write)
    (script other : LockingScript)
    (outpoint otherOutpoint : Outpoint)
    (paid : Pays history script outpoint)
    (otherPaid : Pays history other otherOutpoint)
    (same : hash256 script.write = hash256 other.write) :
    script.write = other.write :=
  separate _ (mem_shown_of_pays paid) _ (mem_shown_of_pays otherPaid) same

/-- An offer for a name that is accepted, with its key. -/
def Operation.IsOffer
    (operation : Operation α)
    (id : Digest)
    (secret : Secret) : Prop :=
  ∃ now job expiresAt, operation = .offer now job secret expiresAt ∧ job.id = id ∧
    job.kind = .contract ∧ job.isValid = true ∧ secret.isValid = true

/-- An offer is entered if it is for a contract and has a key. -/
theorem offer_cases
    {now : Instant}
    {job : Job}
    {secret : Secret}
    {expiresAt : Instant}
    {id : Digest}
    {next : Pool α}
    (offered : pool.offer now job secret expiresAt = .ok (id, next)) :
    job.kind = .contract ∧ job.isValid = true ∧ secret.isValid = true ∧
      next = { pool with
        books := { pool.books with
          sales := SalesBook.enter pool.books.sales
            (Sale.offer now job secret expiresAt) } } := by
  unfold offer at offered
  split at offered
  · contradiction
  · rename_i suitable
    split at offered
    · contradiction
    · rename_i keyed
      obtain ⟨_, rfl⟩ := Prod.mk.inj (Except.ok.inj offered)
      simp only [ne_eq, not_or, Decidable.not_not] at suitable keyed
      exact ⟨suitable.1, suitable.2, keyed, rfl⟩

end Operations

variable {α : Type} [Scalar α] {pool : Pool α}

section Assignment

/-- A worker is given the puzzle of a job exactly if it is put on the board with
it, which must be one that can be worked on. -/
theorem place_cases
    (pool : Pool α)
    (job : Job)
    (worker : Waiting α) :
    pool.place job worker = (none, pool) ∨
      job.isValid = true ∧
        (∃ expected, (pool.board.assign job worker).1 = .accepted expected) ∧
        pool.place job worker =
          (some ⟨worker.worker, job.puzzle⟩,
            { pool with board := (pool.board.assign job worker).2 }) := by
  have assigned := pool.board.assign_cases job worker
  unfold place Job.assignAll
  by_cases valid : job.isValid = true
  · rw [if_pos valid]
    cases answer : pool.board.assign job worker with
    | mk admission board =>
        rw [answer] at assigned
        cases admission with
        | accepted expected => exact Or.inr ⟨valid, ⟨expected, rfl⟩, rfl⟩
        | full | tooDifficult | tooFast =>
            rcases assigned with ⟨_, refused⟩ | ⟨⟨_, accepted⟩, _⟩
            · obtain rfl : board = pool.board := refused
              exact Or.inl rfl
            · cases accepted
  · rw [if_neg valid]
    exact Or.inl rfl

/-- The pool after a worker left its job. -/
def vacated
    (pool : Pool α)
    (worker : WorkerId) :
    Pool α :=
  { pool with board := (pool.board.release worker).2 }

/-- A worker leaves its job and is placed on a selected one, if it can be. -/
theorem assign_cases
    (pool : Pool α)
    (worker : Waiting α) :
    ∃ job, (job = pool.books.contracts.selected ∨ job = pool.books.bounties.selected) ∧
      pool.assign worker = (pool.vacated worker.worker).place job worker := by
  have contracts :=
    (pool.vacated worker.worker).place_cases pool.books.contracts.selected worker
  unfold assign
  dsimp only
  cases pool.books.contracts.current? with
  | none => exact ⟨pool.books.bounties.selected, Or.inr rfl, rfl⟩
  | some front =>
      dsimp only
      unfold vacated at contracts ⊢
      rcases contracts with refused | ⟨_, _, placed⟩
      · rw [refused]
        exact ⟨pool.books.bounties.selected, Or.inr rfl, rfl⟩
      · refine ⟨pool.books.contracts.selected, Or.inl rfl, ?_⟩
        rw [placed]

theorem books_assign
    (pool : Pool α)
    (worker : Waiting α) :
    (pool.assign worker).2.books = pool.books := by
  obtain ⟨job, _, next⟩ := pool.assign_cases worker
  rw [next]
  rcases (pool.vacated worker.worker).place_cases job worker with same | ⟨_, _, placed⟩
  · rw [same]
    rfl
  · rw [placed]
    rfl

theorem books_reassign
    (workers : List (Waiting α))
    (settlement : Settlement α)
    (pool : Pool α) :
    (reassign workers settlement pool).2.books = pool.books := by
  induction workers generalizing settlement pool with
  | nil => rfl
  | cons worker rest inductionHypothesis =>
      have assigned := pool.books_assign worker
      unfold reassign
      cases answer : pool.assign worker with
      | mk found next =>
          rw [answer] at assigned
          cases found with
          | some assignment => exact (inductionHypothesis _ next).trans assigned
          | none => exact (inductionHypothesis _ next).trans assigned

/-- Of a settlement only what concerns the workers depends on the work that is
found for them. -/
theorem settlement_reassign
    (workers : List (Waiting α))
    (settlement : Settlement α)
    (pool : Pool α) :
    ∃ assignments idle, (reassign workers settlement pool).1 =
      { settlement with
        assignments := assignments
        idle := idle } := by
  induction workers generalizing settlement pool with
  | nil => exact ⟨settlement.assignments, settlement.idle, rfl⟩
  | cons worker rest inductionHypothesis =>
      unfold reassign
      cases pool.assign worker with
      | mk found next =>
          cases found with
          | some assignment => exact inductionHypothesis _ next
          | none => exact inductionHypothesis _ next

end Assignment

section Completion

/-- The pool after a job came off the board and out of its queue, before its
workers get other work. -/
def retired
    (pool : Pool α)
    (draw : α)
    (id : Digest)
    (job : Job)
    (solution : Option Solution)
    (board : WorkBoard α) :
    Pool α :=
  { pool with
    books := retire pool.books draw id job solution
    board := board }

/-- A job that is completed was tracked; it is settled as it stands, and then
its workers get other work. -/
theorem complete_cases
    {draw : α}
    {id : Digest}
    {solution : Option Solution}
    {settlement : Settlement α}
    {next : Pool α}
    (completed : pool.complete draw id solution = .ok (settlement, next)) :
    ∃ job completion board, pool.board.job? id = some job ∧
      pool.board.complete id solution = .ok (completion, board) ∧
      (settlement, next) = reassign completion.workers (pool.settlementOf id job solution)
        (pool.retired draw id job solution board) := by
  unfold complete at completed
  cases tracked : pool.board.job? id with
  | none =>
      rw [tracked] at completed
      contradiction
  | some job =>
      rw [tracked] at completed
      dsimp only at completed
      cases answer : pool.board.complete id solution with
      | error failure =>
          rw [answer] at completed
          contradiction
      | ok finished =>
          obtain ⟨completion, board⟩ := finished
          obtain ⟨_, _, rfl, _, _⟩ := WorkBoard.complete_cases answer
          rw [answer] at completed
          exact ⟨job, _, board, rfl, rfl, (Except.ok.inj completed).symm⟩

/-- A completion takes the job it finishes out of its queue and does nothing else
to the books. -/
theorem books_complete
    {draw : α}
    {id : Digest}
    {solution : Option Solution}
    {settlement : Settlement α}
    {next : Pool α}
    (completed : pool.complete draw id solution = .ok (settlement, next)) :
    ∃ job, pool.board.job? id = some job ∧
      next.books = retire pool.books draw id job solution := by
  obtain ⟨job, completion, board, tracked, _, equal⟩ := complete_cases completed
  have books := books_reassign completion.workers (pool.settlementOf id job solution)
    (pool.retired draw id job solution board)
  rw [← equal] at books
  exact ⟨job, tracked, books⟩

end Completion

section Retirement

theorem ledger_retire
    (books : Books α)
    (draw : α)
    (id : Digest)
    (job : Job)
    (solution : Option Solution) :
    (retire books draw id job solution).ledger = books.ledger := by
  unfold retire
  cases job.kind <;> rfl

/-- The sales of other names stay as they are. -/
theorem sales_retire
    (books : Books α)
    (draw : α)
    (id : Digest)
    (job : Job)
    (solution : Option Solution)
    {other : Digest}
    (different : job.kind = .contract → id ≠ other) :
    Keyed.get? (retire books draw id job solution).sales other =
      Keyed.get? books.sales other := by
  unfold retire
  cases kind : job.kind with
  | invalid => rfl
  | bounty => rfl
  | contract =>
      dsimp only
      split
      · unfold SalesBook.update
        cases Keyed.get? books.sales id with
        | none => rfl
        | some sale =>
            dsimp only
            rw [Keyed.get?_put, if_neg (different kind)]
      · rfl

/-- Every sale keeps its key. -/
theorem continue_retire
    (books : Books α)
    (draw : α)
    (id : Digest)
    (job : Job)
    (solution : Option Solution) :
    books.sales.Continue (retire books draw id job solution).sales := by
  unfold retire
  cases job.kind with
  | invalid => exact books.sales.continue_refl
  | bounty => exact books.sales.continue_refl
  | contract =>
      dsimp only
      split
      · exact books.sales.continue_update id .completed
      · exact books.sales.continue_refl

/-- A contract that was solved is sold. -/
theorem get?_retire_of_solved
    {books : Books α}
    {draw : α}
    {id : Digest}
    {job : Job}
    {solution : Option Solution}
    {sale : Sale}
    (found : Keyed.get? books.sales id = some sale)
    (contract : job.kind = .contract)
    (solved : solution.isSome = true) :
    Keyed.get? (retire books draw id job solution).sales id =
      some { sale with status := .completed } := by
  unfold retire
  rw [contract]
  dsimp only
  rw [if_pos solved, SalesBook.get?_update found, if_pos rfl]

end Retirement

section Steps

variable {operation : Operation α}

theorem books_spend
    (pool : Pool α)
    (draw : α)
    (outpoint : Outpoint)
    (spender : Digest) :
    (pool.spend draw outpoint spender).2.books = (pool.books.spend draw outpoint spender).2 := by
  unfold spend
  cases pool.books.spend draw outpoint spender with
  | mk redeemed books =>
      cases redeemed with
      | none => rfl
      | some id =>
          dsimp only
          cases pool.board.complete id none <;> rfl

/-- An offer that is refused changes nothing. -/
theorem step_offer_cases
    (pool : Pool α)
    (now : Instant)
    (job : Job)
    (secret : Secret)
    (expiresAt : Instant) :
    (∀ id key, ¬(Operation.offer now job secret expiresAt : Operation α).IsOffer id key) ∧
        pool.step (.offer now job secret expiresAt) = pool ∨
      ∃ id next, pool.offer now job secret expiresAt = .ok (id, next) ∧
        pool.step (.offer now job secret expiresAt) = next := by
  cases answer : pool.offer now job secret expiresAt with
  | error failure =>
      refine Or.inl ⟨?_, by simp only [step, answer]⟩
      rintro id key ⟨_, _, _, ⟨⟩, _, contract, valid, keyed⟩
      simp [offer, contract, valid, keyed] at answer
  | ok offered => exact Or.inr ⟨offered.1, offered.2, rfl, by simp only [step, answer]⟩

/-- An offer touches the sales alone. -/
theorem step_offer
    (pool : Pool α)
    (now : Instant)
    (job : Job)
    (secret : Secret)
    (expiresAt : Instant) :
    ∃ sales, pool.step (.offer now job secret expiresAt) =
      { pool with books := { pool.books with sales := sales } } := by
  rcases pool.step_offer_cases now job secret expiresAt with
    ⟨_, refused⟩ | ⟨_, _, offered, stepped⟩
  · exact ⟨pool.books.sales, refused⟩
  · obtain ⟨_, _, _, rfl⟩ := offer_cases offered
    exact ⟨_, stepped⟩

/-- A completion that is refused changes nothing. -/
theorem step_complete_cases
    (pool : Pool α)
    (draw : α)
    (id : Digest)
    (solution : Option Solution) :
    pool.step (.complete draw id solution) = pool ∨
      ∃ settlement next, pool.complete draw id solution = .ok (settlement, next) ∧
        pool.step (.complete draw id solution) = next := by
  cases answer : pool.complete draw id solution with
  | error failure => exact Or.inl (by simp only [step, answer])
  | ok settled => exact Or.inr ⟨settled.1, settled.2, rfl, by simp only [step, answer]⟩

theorem step_of_completed
    {draw : α}
    {id : Digest}
    {solution : Option Solution}
    {settlement : Settlement α}
    {next : Pool α}
    (completed : pool.complete draw id solution = .ok (settlement, next)) :
    pool.step (.complete draw id solution) = next := by
  simp only [step, completed]

/-- What an operation can do to the books. -/
inductive BooksStep (pool : Pool α) : Operation α → Books α → Prop
  /-- An output is entered. -/
  | pay
      (now : Instant)
      (draw : α)
      (script : LockingScript)
      (value : UInt64)
      (outpoint : Outpoint) :
      BooksStep pool (.pay now draw script value outpoint)
        (pool.books.pay now draw script value outpoint).2
  /-- A spent output is entered. -/
  | spend
      (draw : α)
      (outpoint : Outpoint)
      (spender : Digest) :
      BooksStep pool (.spend draw outpoint spender) (pool.books.spend draw outpoint spender).2
  /-- A sale is entered. -/
  | offer
      (now : Instant)
      (job : Job)
      (secret : Secret)
      (expiresAt : Instant)
      (contract : job.kind = .contract)
      (valid : job.isValid = true)
      (keyed : secret.isValid = true) :
      BooksStep pool (.offer now job secret expiresAt)
        { pool.books with
          sales := SalesBook.enter pool.books.sales (Sale.offer now job secret expiresAt) }
  /-- A job that was tracked leaves its queue. -/
  | complete
      (draw : α)
      (id : Digest)
      (solution : Option Solution)
      (job : Job)
      (tracked : pool.board.job? id = some job) :
      BooksStep pool (.complete draw id solution) (retire pool.books draw id job solution)
  /-- What neither shows an output nor offers anything may leave the books as
  they are. -/
  | kept
      (operation : Operation α)
      (silent : ∀ script outpoint, ¬operation.Pays script outpoint)
      (unoffered : ∀ id secret, ¬operation.IsOffer id secret) :
      BooksStep pool operation pool.books

/-- Every operation does to the books what an operation can do. -/
theorem booksStep
    (pool : Pool α)
    (operation : Operation α) :
    pool.BooksStep operation (pool.step operation).books := by
  cases operation with
  | pay now draw script value outpoint => exact .pay now draw script value outpoint
  | spend draw outpoint spender =>
      change pool.BooksStep _ (pool.spend draw outpoint spender).2.books
      rw [books_spend]
      exact .spend draw outpoint spender
  | offer now job secret expiresAt =>
      rcases pool.step_offer_cases now job secret expiresAt with
        ⟨unoffered, refused⟩ | ⟨id, next, offered, stepped⟩
      · rw [refused]
        exact .kept _ (by simp [Operation.Pays]) unoffered
      · obtain ⟨contract, valid, keyed, rfl⟩ := offer_cases offered
        rw [stepped]
        exact .offer now job secret expiresAt contract valid keyed
  | assign worker =>
      change pool.BooksStep _ (pool.assign worker).2.books
      rw [books_assign]
      exact .kept _ (by simp [Operation.Pays]) (by simp [Operation.IsOffer])
  | release worker => exact .kept _ (by simp [Operation.Pays]) (by simp [Operation.IsOffer])
  | complete draw id solution =>
      rcases pool.step_complete_cases draw id solution with
        refused | ⟨settlement, next, completed, stepped⟩
      · rw [refused]
        exact .kept _ (by simp [Operation.Pays]) (by simp [Operation.IsOffer])
      · obtain ⟨job, tracked, books⟩ := books_complete completed
        rw [stepped, books]
        exact .complete draw id solution job tracked
  | rearrange arrangement =>
      exact .kept _ (by simp [Operation.Pays]) (by simp [Operation.IsOffer])

/-- An operation takes at most one address. -/
theorem addresses_step
    (pool : Pool α)
    (operation : Operation α) :
    (pool.step operation).books.addresses = pool.books.addresses ∨
      (pool.step operation).books.addresses = pool.books.addresses.issue.2 := by
  have changed := pool.booksStep operation
  generalize (pool.step operation).books = next at changed ⊢
  cases changed with
  | pay now draw script value outpoint =>
      exact pool.books.addresses_pay now draw script value outpoint
  | spend draw outpoint spender =>
      exact Or.inl (pool.books.addresses_spend draw outpoint spender)
  | offer => exact Or.inl rfl
  | complete draw id solution job tracked =>
      left
      unfold retire
      cases job.kind <;> rfl
  | kept => exact Or.inl rfl

/-- Addresses that differ at the end differed all the time. -/
theorem neverRepeats_of_step
    (distinct : (pool.step operation).books.addresses.NeverRepeats) :
    pool.books.addresses.NeverRepeats := by
  rcases pool.addresses_step operation with same | issued
  · rw [same] at distinct
    exact distinct
  · rw [issued] at distinct
    exact distinct.of_issue

/-- The ledger does not forget an output. -/
theorem isSome_owner_step
    {outpoint : Outpoint}
    (known : (pool.books.ledger.owners.get? outpoint).isSome = true)
    (operation : Operation α) :
    ((pool.step operation).books.ledger.owners.get? outpoint).isSome = true := by
  have changed := pool.booksStep operation
  generalize (pool.step operation).books = next at changed ⊢
  cases changed with
  | pay now draw script value paid => exact Books.isSome_owner_pay known now draw script value paid
  | spend draw spent spender =>
      rw [Books.owners_spend]
      exact known
  | offer => exact known
  | complete draw finished solution job tracked =>
      rw [ledger_retire]
      exact known
  | kept => exact known

/-- The key of a sale is that of the operation, if it offers the name, and was
there before otherwise. -/
theorem sale_step
    {id : Digest}
    {sale : Sale}
    (found : Keyed.get? (pool.step operation).books.sales id = some sale) :
    operation.IsOffer id sale.secret ∨
      (∀ secret, ¬operation.IsOffer id secret) ∧
        ∃ earlier, Keyed.get? pool.books.sales id = some earlier ∧
          sale.secret = earlier.secret := by
  have changed := pool.booksStep operation
  generalize (pool.step operation).books = next at changed found
  cases changed with
  | pay now draw script value outpoint =>
      exact Or.inr ⟨by simp [Operation.IsOffer],
        pool.books.continue_pay now draw script value outpoint id sale found⟩
  | spend draw outpoint spender =>
      rw [Books.sales_spend] at found
      exact Or.inr ⟨by simp [Operation.IsOffer], sale, found, rfl⟩
  | offer now job secret expiresAt contract valid keyed =>
      change Keyed.get? (Keyed.put _ _ _) id = some sale at found
      rw [Keyed.get?_put] at found
      split at found
      · rename_i same
        obtain rfl := Option.some.inj found
        exact Or.inl ⟨now, job, expiresAt, rfl, same, contract, valid, keyed⟩
      · rename_i other
        refine Or.inr ⟨?_, sale, found, rfl⟩
        rintro key ⟨_, _, _, ⟨⟩, same, _⟩
        exact other same
  | complete draw completed solution job tracked =>
      exact Or.inr ⟨by simp [Operation.IsOffer],
        continue_retire pool.books draw completed job solution id sale found⟩
  | kept _ _ unoffered => exact Or.inr ⟨unoffered id, sale, found, rfl⟩

end Steps

section Runs

theorem run_append
    (pool : Pool α)
    (first second : List (Operation α)) :
    pool.run (first ++ second) = (pool.run first).run second :=
  List.foldl_append

theorem run_concat
    (pool : Pool α)
    (earlier : List (Operation α))
    (operation : Operation α) :
    pool.run (earlier ++ [operation]) = (pool.run earlier).step operation :=
  pool.run_append earlier [operation]

theorem neverRepeats_of_run
    (operations : List (Operation α))
    (distinct : (pool.run operations).books.addresses.NeverRepeats) :
    pool.books.addresses.NeverRepeats := by
  induction operations generalizing pool with
  | nil => exact distinct
  | cons operation rest inductionHypothesis =>
      exact neverRepeats_of_step (inductionHypothesis distinct)

/-- Addresses that differ at the end of a history differ after each operation. -/
theorem neverRepeats_of_split
    {history earlier later : List (Operation α)}
    {operation : Operation α}
    (split : history = earlier ++ operation :: later)
    (distinct : (pool.run history).books.addresses.NeverRepeats) :
    ((pool.run earlier).step operation).books.addresses.NeverRepeats := by
  rw [split, run_append] at distinct
  exact neverRepeats_of_run later distinct

/-- The series of addresses stays the same. -/
theorem addressAt_run
    (pool : Pool α)
    (operations : List (Operation α)) :
    (pool.run operations).books.addresses.addressAt = pool.books.addresses.addressAt := by
  induction operations generalizing pool with
  | nil => rfl
  | cons operation rest inductionHypothesis =>
      apply (inductionHypothesis (pool.step operation)).trans
      rcases pool.addresses_step operation with same | issued
      · rw [same]
      · rw [issued]
        rfl

/-- There are no more addresses handed out than operations. -/
theorem issued_run_le
    (pool : Pool α)
    (operations : List (Operation α)) :
    (pool.run operations).books.addresses.issued ≤
      pool.books.addresses.issued + operations.length := by
  induction operations generalizing pool with
  | nil => exact Nat.le_refl _
  | cons operation rest inductionHypothesis =>
      have bounded : ((pool.step operation).run rest).books.addresses.issued ≤
          (pool.step operation).books.addresses.issued + rest.length :=
        inductionHypothesis (pool.step operation)
      have stepped : (pool.step operation).books.addresses.issued ≤
          pool.books.addresses.issued + 1 := by
        rcases pool.addresses_step operation with same | issued
        · rw [same]
          exact Nat.le_succ _
        · rw [issued]
          exact Nat.le_refl _
      change ((pool.step operation).run rest).books.addresses.issued ≤ _
      rw [List.length_cons]
      omega

end Runs

end Pool
end WorkMarket
