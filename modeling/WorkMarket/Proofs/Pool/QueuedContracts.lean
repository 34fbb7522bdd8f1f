import Mathlib.Data.List.Induction
import WorkMarket.Proofs.Market.ContractSales
import WorkMarket.Proofs.Pool.BoardSteps
import WorkMarket.Proofs.Pool.Consistency

/-!
# One queued contract for each script

A contract that is in progress is the one at the front of the queue, so that
completing it takes just that contract out while its sale is completed.  Every
operation but one therefore keeps the contracts distinct and their sales
accepted.  The exception is an offer for a contract that is queued: it replaces
the accepted sale, and the next output queues the contract a second time.
-/

namespace WorkMarket
namespace Pool

/-- A contract that is selected is the one at the front. -/
theorem offers_of_selects
    {α : Type}
    {books : Books α}
    {id : Digest}
    (once : books.QueuesOnce)
    {job : Job}
    (selects : books.Selects id job)
    (contract : job.kind = .contract) :
    books.contracts.Offers id job := by
  obtain ⟨valid, rfl, rfl | rfl⟩ := selects
  · exact once.contracts.offers_selected valid
  · exact absurd contract once.bounties.kind_selected_ne

variable {α : Type} [Scalar α]

/-- Whether every queued contract is queued once and has an accepted sale, so
that a further output is noted with its one job and adds no difficulty. -/
structure OneContractEach (pool : Pool α) : Prop where
  distinct :
    (pool.books.contracts.queue.jobs.map fun contract => contract.output.id).Nodup
  accepted : ∀ contract ∈ pool.books.contracts.queue.jobs, ∃ sale,
    Keyed.get? pool.books.sales contract.output.id = some sale ∧ sale.status = .accepted
  noted : ∀ now draw script value outpoint, script.kind = .contract →
    pool.books.contracts.queue.contains script.id = true →
    (pool.pay now draw script value outpoint).1 ≠ .invalid →
    (pool.pay now draw script value outpoint).2.books.contracts.queue =
      { pool.books.contracts.queue with
        jobs := pool.books.contracts.queue.jobs.map fun contract =>
          if contract.output.id = script.id then contract.addOutpoint outpoint
          else contract }

/-- Books in which no contract is queued twice, and a board on which every
contract is the one at the front. -/
structure QueuesOnce (pool : Pool α) : Prop where
  books : pool.books.QueuesOnce
  board : pool.board.IsSound
  front : ∀ id job, pool.board.job? id = some job → job.kind = .contract →
    pool.books.contracts.Offers id job

variable {pool next : Pool α} {operation : Operation α} {id : Digest}

theorem QueuesOnce.oneContractEach
    (once : pool.QueuesOnce) :
    pool.OneContractEach where
  distinct := once.books.distinct
  accepted := once.books.accepted
  noted := fun _ _ _ _ _ contract queued entered =>
    once.books.queue_pay contract queued entered

theorem queuesOnce_fresh
    (settings : PoolSettings α)
    (addresses : AddressBook) :
    (fresh settings addresses).QueuesOnce where
  books := Books.queuesOnce_empty addresses settings.costs
  board := WorkBoard.isSound_empty settings.limits
  front := by simp [fresh, WorkBoard.empty, WorkBoard.job?]

section Steps

/-- An output that appears leaves the contract at the front. -/
theorem offers_pay
    {books : Books α}
    {job : Job}
    (offered : books.contracts.Offers id job)
    (now : Instant)
    (draw : α)
    (script : LockingScript)
    (value : UInt64)
    (outpoint : Outpoint) :
    (books.pay now draw script value outpoint).2.contracts.Offers id job := by
  rcases books.pay_cases now draw script value outpoint with
    refused | known | ⟨_, _, ⟨_, ranked⟩ | ⟨_, accepted⟩⟩
  · rw [refused]
    exact offered
  · rw [known]
    exact offered
  · rw [ranked, Books.contracts_rankBounty]
    exact offered
  · rw [accepted]
    rcases (books.recorded now script value outpoint).acceptContract_cases
        (Output.ofScript outpoint script value) with
      ⟨_, ignored⟩ | ⟨_, _, _, queued⟩ | ⟨_, _, _, noted⟩
    · rw [ignored]
      exact offered
    · rw [queued]
      exact offered.insert _
    · rw [noted]
      exact offered.addOutput _

/-- A spent output leaves the contract at the front, unless it redeems it. -/
theorem offers_spend
    {books : Books α}
    {draw : α}
    {outpoint : Outpoint}
    {spender : Digest}
    {job : Job}
    (offered : books.contracts.Offers id job)
    (other : (books.spend draw outpoint spender).1 ≠ some id) :
    (books.spend draw outpoint spender).2.contracts.Offers id job := by
  rcases books.spend_cases draw outpoint spender with unknown | ⟨redeemed, _, ⟨_, kept⟩ | left⟩
  · rw [unknown]
    exact offered
  · rw [kept]
    exact offered
  · rw [left] at other ⊢
    exact offered.remove fun same => other (congrArg some same.symm)

/-- A finished contract leaves the queue from the front. -/
theorem queuesOnce_retire
    {books : Books α}
    (once : books.QueuesOnce)
    {job : Job}
    (front : job.kind = .contract → books.contracts.Offers id job)
    (draw : α)
    (solution : Option Solution) :
    (retire books draw id job solution).QueuesOnce := by
  unfold retire
  cases kind : job.kind with
  | invalid => exact once
  | bounty =>
      exact ⟨once.contracts, once.bounties.finish job.puzzle draw, once.distinct, once.accepted⟩
  | contract =>
      refine ⟨once.contracts.finish job.puzzle, once.bounties,
        once.distinct.finish job.puzzle, ?_⟩
      obtain ⟨first, isFirst, rfl, rfl⟩ := front kind
      obtain ⟨rest, jobs⟩ := List.head?_eq_some_iff.mp isFirst
      intro contract present
      dsimp only at present ⊢
      rw [once.contracts.jobs_finish isFirst, jobs, List.tail_cons] at present
      have distinct := once.distinct
      unfold ContractSchedule.IsDistinct at distinct
      rw [jobs, List.map_cons, List.nodup_cons] at distinct
      have different : first.output.id ≠ contract.output.id := fun same =>
        distinct.1 (List.mem_map.mpr ⟨contract, present, same.symm⟩)
      obtain ⟨sale, found, status⟩ :=
        once.accepted contract (jobs ▸ List.mem_cons_of_mem first present)
      have sales : Keyed.get? (retire books draw first.output.id first.job solution).sales
          contract.output.id = Keyed.get? books.sales contract.output.id :=
        sales_retire books draw first.output.id first.job solution fun _ => different
      unfold retire at sales
      rw [kind] at sales
      exact ⟨sale, sales.trans found, status⟩

/-- A contract in progress stays at the front while another job is finished. -/
theorem offers_retire_of_ne
    {books : Books α}
    {other : Digest}
    {job otherJob : Job}
    (front : job.kind = .contract → books.contracts.Offers id job)
    (offered : books.contracts.Offers other otherJob)
    (different : other ≠ id)
    (draw : α)
    (solution : Option Solution) :
    (retire books draw id job solution).contracts.Offers other otherJob := by
  unfold retire
  cases kind : job.kind with
  | invalid | bounty => exact offered
  | contract => exact absurd (offered.unique (front kind)) different

theorem QueuesOnce.complete
    (once : pool.QueuesOnce)
    {draw : α}
    {solution : Option Solution}
    {settlement : Settlement α}
    (completed : pool.complete draw id solution = .ok (settlement, next)) :
    next.QueuesOnce := by
  obtain ⟨job, tracked, books⟩ := books_complete completed
  have front := once.front id job tracked
  have nextBooks : next.books.QueuesOnce := books ▸ queuesOnce_retire once.books front draw solution
  refine ⟨nextBooks, isSound_board_complete once.board completed, ?_⟩
  intro other otherJob otherTracked contract
  rcases tracked_of_complete once.board completed otherTracked with ⟨different, before⟩ | selects
  · rw [books]
    exact offers_retire_of_ne front (once.front other otherJob before contract) different draw
      solution
  · exact offers_of_selects nextBooks selects contract

/-- Every operation keeps contracts queued once, unless it is an offer for one
of them. -/
theorem QueuesOnce.step
    (once : pool.QueuesOnce)
    (regular : ∀ script outpoint, operation.Pays script outpoint → script.IsRegular)
    (unqueued : ∀ id secret, operation.IsOffer id secret →
      pool.books.contracts.queue.contains id = false) :
    (pool.step operation).QueuesOnce := by
  have board := isSound_board_step once.board operation
  cases operation with
  | pay now draw script value outpoint =>
      refine ⟨once.books.pay (regular script outpoint ⟨now, draw, value, rfl⟩) now draw value
        outpoint, board, ?_⟩
      intro id job tracked contract
      exact offers_pay (once.front id job tracked contract) now draw script value outpoint
  | spend draw outpoint spender =>
      refine ⟨?_, board, ?_⟩
      · change (pool.spend draw outpoint spender).2.books.QueuesOnce
        rw [books_spend]
        exact once.books.spend draw outpoint spender
      · intro id job tracked contract
        obtain ⟨before, other⟩ := tracked_of_spend tracked
        change (pool.spend draw outpoint spender).2.books.contracts.Offers id job
        rw [books_spend]
        exact offers_spend (once.front id job before contract) other
  | offer now job secret expiresAt =>
      rcases pool.step_offer_cases now job secret expiresAt with
        ⟨_, refused⟩ | ⟨_, _, offered, stepped⟩
      · rw [refused]
        exact once
      · obtain ⟨contract, valid, keyed, rfl⟩ := offer_cases offered
        rw [stepped]
        exact ⟨once.books.enter (Sale.offer now job secret expiresAt)
          (unqueued _ _ ⟨now, job, expiresAt, rfl, rfl, contract, valid, keyed⟩), once.board,
          once.front⟩
  | assign worker =>
      have books := pool.books_assign worker
      refine ⟨?_, board, ?_⟩
      · change (pool.assign worker).2.books.QueuesOnce
        rw [books]
        exact once.books
      · intro id job tracked contract
        change (pool.assign worker).2.books.contracts.Offers id job
        rw [books]
        rcases tracked_of_assign once.board tracked with before | selects
        · exact once.front id job before contract
        · exact offers_of_selects once.books selects contract
  | release worker =>
      exact ⟨once.books, board, fun id job tracked =>
        once.front id job (once.board.job?_of_release tracked)⟩
  | complete draw id solution =>
      rcases pool.step_complete_cases draw id solution with
        refused | ⟨_, _, completed, stepped⟩
      · rw [refused]
        exact once
      · rw [stepped]
        exact once.complete completed
  | rearrange arrangement =>
      exact ⟨once.books, board, fun id job tracked =>
        once.front id job (tracked_of_rearrange once.board tracked)⟩

/-- An offer for a queued contract leaves it without an accepted sale. -/
theorem OneContractEach.unqueued
    (each : (pool.step operation).OneContractEach)
    {secret : Secret}
    (offer : operation.IsOffer id secret) :
    pool.books.contracts.queue.contains id = false := by
  obtain ⟨now, job, expiresAt, rfl, rfl, contract, valid, keyed⟩ := offer
  have stepped : pool.step (.offer now job secret expiresAt) =
      { pool with
        books := { pool.books with
          sales := SalesBook.enter pool.books.sales (Sale.offer now job secret expiresAt) } } := by
    simp [step, Pool.offer, contract, valid, keyed]
  rw [stepped] at each
  rw [← Bool.not_eq_true]
  intro queued
  obtain ⟨held, present, named⟩ := ContractSchedule.exists_of_contains queued
  obtain ⟨sale, found, status⟩ := each.accepted held present
  change Keyed.get? (Keyed.put _ job.id _) held.output.id = some sale at found
  rw [Keyed.get?_put, if_pos named.symm] at found
  rw [← Option.some.inj found] at status
  contradiction

end Steps

section Histories

variable {settings : PoolSettings α} {addresses : AddressBook} {history : List (Operation α)}

/-- Until a queued contract is offered again, contracts are queued once. -/
theorem queuesOnce_of_unqueued
    (built : ∀ script outpoint, Pays history script outpoint → script.IsBuilt)
    (unqueued : ∀ earlier operation later id secret, history = earlier ++ operation :: later →
      operation.IsOffer id secret →
      ((fresh settings addresses).run earlier).books.contracts.queue.contains id = false)
    {earlier later : List (Operation α)}
    (split : history = earlier ++ later) :
    ((fresh settings addresses).run earlier).QueuesOnce := by
  induction earlier using List.reverseRecOn generalizing later with
  | nil => exact queuesOnce_fresh settings addresses
  | append_singleton earlier operation inductionHypothesis =>
      rw [List.append_assoc, List.singleton_append] at split
      rw [run_concat]
      refine (inductionHypothesis split).step ?_ fun id secret =>
        unqueued earlier operation later id secret split
      intro script outpoint paid
      exact (built script outpoint ⟨operation,
        split ▸ List.mem_append_right earlier List.mem_cons_self, paid⟩).isRegular

/-- Whatever happens to a fresh pool, every contract is queued once with an
accepted sale, exactly if no contract is offered while it is queued. -/
theorem oneContractEach_iff_unqueued
    (settings : PoolSettings α)
    (addresses : AddressBook)
    (history : List (Operation α))
    (built : ∀ script outpoint, Pays history script outpoint → script.IsBuilt) :
    (∀ earlier later, history = earlier ++ later →
        ((fresh settings addresses).run earlier).OneContractEach) ↔
      ∀ earlier operation later id secret, history = earlier ++ operation :: later →
        operation.IsOffer id secret →
        ((fresh settings addresses).run earlier).books.contracts.queue.contains id = false := by
  constructor
  · intro each earlier operation later id secret split offer
    have after := each (earlier ++ [operation]) later (by rw [split]; simp)
    rw [run_concat] at after
    exact after.unqueued offer
  · intro unqueued earlier later split
    exact (queuesOnce_of_unqueued built unqueued split).oneContractEach

/-- A contract is offered, offered again after its first output, and then gets
another one. -/
def offeredAgain : List (Operation Rat) :=
  [.offer ⟨0, 0⟩ (Job.ofScript sampleContract (FixedBytes.filled 20 9))
      ⟨FixedBytes.filled 32 3⟩ ⟨100, 0⟩,
    .pay ⟨1, 0⟩ 0 sampleContract 70 ⟨FixedBytes.filled 32 1, 0⟩,
    .offer ⟨2, 0⟩ (Job.ofScript sampleContract (FixedBytes.filled 20 9))
      ⟨FixedBytes.filled 32 3⟩ ⟨100, 0⟩,
    .pay ⟨3, 0⟩ 0 sampleContract 70 ⟨FixedBytes.filled 32 2, 0⟩]

/-- The contract is queued twice. -/
theorem not_oneContractEach_offeredAgain :
    ¬((fresh PoolSettings.usual AddressBook.counting).run offeredAgain).OneContractEach := by
  intro each
  exact absurd each.distinct (by decide +kernel)

/-- A contract is offered once and gets two outputs, the second of them while a
worker is on it. -/
def toppedUp : List (Operation Rat) :=
  [.offer ⟨0, 0⟩ (Job.ofScript sampleContract (FixedBytes.filled 20 9))
      ⟨FixedBytes.filled 32 3⟩ ⟨100, 0⟩,
    .pay ⟨1, 0⟩ 0 sampleContract 70 ⟨FixedBytes.filled 32 1, 0⟩,
    .assign ⟨⟨7⟩, 1 / 100⟩,
    .pay ⟨2, 0⟩ 0 sampleContract 70 ⟨FixedBytes.filled 32 2, 0⟩]

theorem isBuilt_toppedUp
    (script : LockingScript)
    (outpoint : Outpoint)
    (paid : Pays toppedUp script outpoint) :
    script.IsBuilt := by
  have inShown := List.mem_map_of_mem (f := Prod.fst) (mem_shown_of_pays paid)
  simp only [toppedUp, shown, List.map_cons, List.map_nil, List.mem_cons, List.not_mem_nil,
    or_false, or_self] at inShown
  rw [inShown]
  exact .contract ..

/-- Both outputs are noted with the one job. -/
theorem oneContractEach_iff_unqueued_toppedUp :
    (∀ script outpoint, Pays toppedUp script outpoint → script.IsBuilt) ∧
      ((fresh PoolSettings.usual AddressBook.counting).run
          toppedUp).books.contracts.queue.jobs.map ContractJob.outpoints =
        [[⟨FixedBytes.filled 32 1, 0⟩, ⟨FixedBytes.filled 32 2, 0⟩]] ∧
      ((∀ earlier later, toppedUp = earlier ++ later →
          ((fresh PoolSettings.usual AddressBook.counting).run earlier).OneContractEach) ↔
        ∀ earlier operation later id secret, toppedUp = earlier ++ operation :: later →
          operation.IsOffer id secret →
          ((fresh PoolSettings.usual AddressBook.counting).run
            earlier).books.contracts.queue.contains id = false) :=
  ⟨isBuilt_toppedUp, by decide +kernel,
    oneContractEach_iff_unqueued PoolSettings.usual AddressBook.counting toppedUp
      isBuilt_toppedUp⟩

end Histories

end Pool
end WorkMarket
