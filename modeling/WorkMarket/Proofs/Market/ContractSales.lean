import WorkMarket.Proofs.Market.BooksTracing

/-!
# Queued contracts and their sales

A contract is queued when its sale is accepted.  As long as the sale stays
accepted, a further output of the contract is noted with the job that is
queued, so that no contract is queued twice.  Only an offer for a queued
contract takes the sale back.
-/

namespace WorkMarket
namespace ContractQueue

/-- Where no name is queued twice, noting an output concerns every contract of
its name. -/
theorem addToFirst_eq_map
    {jobs : List ContractJob}
    (distinct : (jobs.map fun contract => contract.output.id).Nodup)
    (output : Output) :
    addToFirst output jobs = jobs.map fun contract =>
      if contract.output.id = output.id then contract.addOutpoint output.outpoint
      else contract := by
  induction jobs with
  | nil => rfl
  | cons first rest inductionHypothesis =>
      rw [List.map_cons, List.nodup_cons] at distinct
      unfold addToFirst
      split
      · rename_i named
        rw [List.map_cons, if_pos named]
        have others : ∀ contract ∈ rest, contract.output.id ≠ output.id := by
          intro contract present same
          exact distinct.1 (List.mem_map.mpr ⟨contract, present, same.trans named.symm⟩)
        congr 1
        rw [List.map_congr_left (g := fun contract => contract), List.map_id']
        exact fun contract present => if_neg (others contract present)
      · rename_i other
        rw [List.map_cons, if_neg other, inductionHypothesis distinct.2]

end ContractQueue

namespace Books

section Invariant

variable {α : Type} {books : Books α}

/-- Whether no contract is queued twice, and every one has an accepted sale. -/
structure QueuesOnce (books : Books α) : Prop where
  contracts : books.contracts.IsSound
  bounties : books.bounties.IsTidy
  distinct : books.contracts.IsDistinct
  accepted : ∀ contract ∈ books.contracts.queue.jobs, ∃ sale,
    Keyed.get? books.sales contract.output.id = some sale ∧ sale.status = .accepted

/-- A contract whose sale is not accepted is not queued. -/
theorem QueuesOnce.unlisted_of_status
    (once : books.QueuesOnce)
    {id : Digest}
    {sale : Sale}
    (found : Keyed.get? books.sales id = some sale)
    (other : sale.status ≠ .accepted) :
    books.contracts.listing? id = none := by
  cases listed : books.contracts.listing? id with
  | none => rfl
  | some listing =>
      obtain ⟨contract, present, rfl, _⟩ := ContractSchedule.exists_of_listing? listed
      obtain ⟨accepted, again, status⟩ := once.accepted contract present
      rw [found] at again
      rw [Option.some.inj again] at other
      exact absurd status other

/-- An offer for a contract that is not queued leaves the sales of those that
are. -/
theorem QueuesOnce.enter
    (once : books.QueuesOnce)
    (sale : Sale)
    (unqueued : books.contracts.queue.contains sale.id = false) :
    ({ books with sales := SalesBook.enter books.sales sale } : Books α).QueuesOnce := by
  refine ⟨once.contracts, once.bounties, once.distinct, ?_⟩
  intro contract present
  have different : sale.id ≠ contract.output.id := by
    intro same
    rw [same, ContractSchedule.contains_eq, once.distinct.listing?_of_mem present] at unqueued
    contradiction
  change ∃ found, Keyed.get? (Keyed.put books.sales sale.id sale) contract.output.id = some found ∧
    found.status = .accepted
  rw [Keyed.get?_put, if_neg different]
  exact once.accepted contract present

end Invariant

variable {α : Type} [Scalar α] {books : Books α}

theorem queuesOnce_empty
    (addresses : AddressBook)
    (costs : CostModel α) :
    (empty addresses costs).QueuesOnce where
  contracts := ContractSchedule.isSound_empty
  bounties := BountySchedule.isTidy_empty costs
  distinct := List.nodup_nil
  accepted := by simp [empty, ContractSchedule.empty, ContractQueue.empty]

/-- Noting, queueing or leaving a contract alone queues none twice. -/
theorem QueuesOnce.acceptContract
    (once : books.QueuesOnce)
    {output : Output}
    (named : output.script.id = output.id)
    (regular : output.script.IsRegular) :
    (books.acceptContract output).QueuesOnce := by
  have contracts := isSound_acceptContract once.contracts named regular
  rcases books.acceptContract_cases output with
    ⟨_, ignored⟩ | ⟨sale, found, offered, queued⟩ | ⟨_, _, _, noted⟩
  · rw [ignored]
    exact once
  · have unlisted := once.unlisted_of_status found (by rw [offered]; simp)
    rw [queued] at contracts ⊢
    refine ⟨contracts, once.bounties, once.distinct.insert _ unlisted, ?_⟩
    intro contract present
    dsimp only at present ⊢
    rw [ContractSchedule.queue_insert] at present
    rw [SalesBook.get?_update found]
    split
    · exact ⟨_, rfl, rfl⟩
    · rename_i other
      rcases books.contracts.queue.push_cases (ContractJob.ofOutput output sale.secret) with
        ignored | ⟨_, pushed⟩
      · rw [ignored] at present
        exact once.accepted contract present
      · rw [pushed, List.mem_append, List.mem_singleton] at present
        rcases present with before | rfl
        · exact once.accepted contract before
        · exact absurd rfl other
  · rw [noted] at contracts ⊢
    refine ⟨contracts, once.bounties, once.distinct.addOutput output, ?_⟩
    intro contract present
    rcases ContractQueue.of_mem_addToFirst present with before | ⟨earlier, before, _, rfl⟩
    · exact once.accepted contract before
    · rw [ContractJob.output_addOutpoint]
      exact once.accepted earlier before

/-- Whatever output appears, no contract is queued twice. -/
theorem QueuesOnce.pay
    (once : books.QueuesOnce)
    {script : LockingScript}
    (regular : script.IsRegular)
    (now : Instant)
    (draw : α)
    (value : UInt64)
    (outpoint : Outpoint) :
    (books.pay now draw script value outpoint).2.QueuesOnce := by
  have recorded : (books.recorded now script value outpoint).QueuesOnce :=
    ⟨once.contracts, once.bounties, once.distinct, once.accepted⟩
  rcases books.pay_cases now draw script value outpoint with
    refused | known | ⟨_, _, ⟨_, ranked⟩ | ⟨_, accepted⟩⟩
  · rw [refused]
    exact once
  · rw [known]
    exact ⟨once.contracts, once.bounties, once.distinct, once.accepted⟩
  · have contracts := contracts_rankBounty (books.recorded now script value outpoint)
      (Output.ofScript outpoint script value) draw
    have sales := sales_rankBounty (books.recorded now script value outpoint)
      (Output.ofScript outpoint script value) draw
    rw [ranked]
    refine ⟨?_, isTidy_rankBounty recorded.bounties rfl regular draw, ?_, ?_⟩
    · rw [contracts]
      exact recorded.contracts
    · rw [contracts]
      exact recorded.distinct
    · rw [contracts, sales]
      exact recorded.accepted
  · rw [accepted]
    exact recorded.acceptContract rfl regular

/-- Whatever output is spent, no contract is queued twice. -/
theorem QueuesOnce.spend
    (once : books.QueuesOnce)
    (draw : α)
    (outpoint : Outpoint)
    (spender : Digest) :
    (books.spend draw outpoint spender).2.QueuesOnce := by
  rcases books.spend_cases draw outpoint spender with unknown | ⟨id, _, ⟨_, kept⟩ | left⟩
  · rw [unknown]
    exact once
  · rw [kept]
    exact ⟨once.contracts, once.bounties, once.distinct, once.accepted⟩
  · rw [left]
    refine ⟨once.contracts.remove id, once.bounties.remove id draw, once.distinct.remove id, ?_⟩
    intro contract present
    change contract ∈ (books.contracts.queue.remove id).2.jobs at present
    rw [ContractQueue.jobs_remove] at present
    exact once.accepted contract (List.mem_filter.mp present).1

/-- A further output of a queued contract is noted with its one job, and the
queue stays as difficult as it was. -/
theorem QueuesOnce.queue_pay
    (once : books.QueuesOnce)
    {now : Instant}
    {draw : α}
    {script : LockingScript}
    {value : UInt64}
    {outpoint : Outpoint}
    (contract : script.kind = .contract)
    (queued : books.contracts.queue.contains script.id = true)
    (entered : (books.pay now draw script value outpoint).1 ≠ .invalid) :
    (books.pay now draw script value outpoint).2.contracts.queue =
      { books.contracts.queue with
        jobs := books.contracts.queue.jobs.map fun job =>
          if job.output.id = script.id then job.addOutpoint outpoint else job } := by
  rcases books.pay_cases now draw script value outpoint with
    refused | known | ⟨_, _, ⟨bounty, _⟩ | ⟨_, accepted⟩⟩
  · rw [refused] at entered
    contradiction
  · rw [known] at entered
    contradiction
  · rw [contract] at bounty
    contradiction
  · obtain ⟨job, present, named⟩ := ContractSchedule.exists_of_contains queued
    obtain ⟨sale, found, status⟩ := once.accepted job present
    rw [named] at found
    rw [accepted]
    rcases (books.recorded now script value outpoint).acceptContract_cases
        (Output.ofScript outpoint script value) with
      ⟨other, _⟩ | ⟨_, again, offered, _⟩ | ⟨_, _, _, noted⟩
    · exact absurd status (other sale found)
    · obtain rfl := Option.some.inj (found.symm.trans again)
      rw [status] at offered
      contradiction
    · rw [noted]
      exact congrArg (ContractQueue.mk · books.contracts.queue.difficulty)
        (ContractQueue.addToFirst_eq_map once.distinct (Output.ofScript outpoint script value))

end Books
end WorkMarket
