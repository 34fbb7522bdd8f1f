import Mathlib.Data.List.Induction
import WorkMarket.Proofs.Pool.Settlement
import WorkMarket.Proofs.Pool.Tracing

/-!
# Spent outputs in settlements

The ledger marks an output that is spent, but the queues let go of a script only
once all its outputs are spent.  So a script that is partly spent stays queued
with every output it had, and is settled with them.  On a chain this is the
only way for a spent output to be listed or settled.
-/

namespace WorkMarket
namespace Pool

variable {α : Type} [Scalar α] {pool start : Pool α} {pays : LockingScript → Outpoint → Prop}
  {operation : Operation α}

/-- Whether no queue lists an output that is spent. -/
def ListsUnspent
    (pool : Pool α) : Prop :=
  ∀ id outpoint, pool.books.Lists id outpoint →
    pool.books.ledger.spender? outpoint = none

/-- Whether an operation that spends a listed output takes the whole script off
the queues. -/
def SpendsWhole
    (pool : Pool α)
    (operation : Operation α) : Prop :=
  ∀ draw outpoint spender id, operation = .spend draw outpoint spender →
    pool.books.Lists id outpoint → (pool.books.spend draw outpoint spender).1 = some id

/-- Whether a history neither lists nor settles an output that it reported
spent after the output was registered. -/
structure SettlesUnspent
    (start : Pool α)
    (history : List (Operation α)) : Prop where
  listed : ∀ earlier later, history = earlier ++ later → (start.run earlier).ListsUnspent
  settled : ∀ settling : start.Settling history, ∀ before draw outpoint spender between,
    settling.earlier = before ++ .spend draw outpoint spender :: between →
    ((start.run before).books.ledger.owners.get? outpoint).isSome = true →
    outpoint ∉ settling.settlement.outpoints

section Steps

/-- Lists without spent outputs stay so, unless part of a listed script is
spent. -/
theorem ListsUnspent.step
    (unspent : pool.ListsUnspent)
    (traced : pool.books.IsTraced pays)
    (chain : IsChain pays)
    (paid : ∀ script outpoint, operation.Pays script outpoint → pays script outpoint)
    (whole : pool.SpendsWhole operation) :
    (pool.step operation).ListsUnspent := by
  intro id outpoint listed
  have before : pool.books.ledger.spender? outpoint = none := by
    rcases of_lists_step traced chain paid listed with listedBefore | unknown
    · exact unspent id outpoint listedBefore
    · exact Ledger.spender?_of_unowned unknown
  rcases spender?_step traced chain paid outpoint with same | ⟨draw, spender, rfl, known, _⟩
  · exact same.trans before
  · change (pool.spend draw outpoint spender).2.books.Lists id outpoint at listed
    rw [books_spend] at listed
    obtain ⟨listedBefore, still⟩ := traced.of_lists_spend listed
    exact absurd (whole draw outpoint spender id rfl listedBefore) still

/-- A listed output whose script stays queued is listed as spent. -/
theorem ListsUnspent.spendsWhole
    (unspent : (pool.step operation).ListsUnspent)
    (traced : pool.books.IsTraced pays) :
    pool.SpendsWhole operation := by
  rintro draw outpoint spender id rfl listed
  change (pool.spend draw outpoint spender).2.ListsUnspent at unspent
  unfold ListsUnspent at unspent
  rw [books_spend] at unspent
  have owned := traced.registered id outpoint listed
  rcases traced.spend_cases draw outpoint spender with
    ⟨unowned, _⟩ | ⟨owner, isOwner, _, ⟨_, kept⟩ | ⟨_, left⟩⟩
  · rw [owned] at unowned
    contradiction
  · have marked := traced.ledger.spender?_redeem outpoint outpoint spender
    rw [if_pos ⟨rfl, by rw [owned]; rfl⟩] at marked
    have unmarked := unspent id outpoint (by rw [kept]; exact listed)
    rw [kept] at unmarked
    rw [marked] at unmarked
    contradiction
  · rw [owned] at isOwner
    rw [left, Option.some.inj isOwner]

/-- What a completion settles was listed. -/
theorem exists_lists_of_settled
    {draw : α}
    {id : Digest}
    {solution : Option Solution}
    {settlement : Settlement α}
    {next : Pool α}
    (completed : pool.complete draw id solution = .ok (settlement, next))
    {outpoint : Outpoint}
    (present : outpoint ∈ settlement.outpoints) :
    pool.books.Lists id outpoint := by
  obtain ⟨job, completion, board, _, _, equal⟩ := complete_cases completed
  obtain ⟨assignments, idle, settled⟩ := settlement_reassign completion.workers
    (pool.settlementOf id job solution) (pool.retired draw id job solution board)
  rw [← equal] at settled
  obtain rfl : settlement = _ := settled
  change outpoint ∈ pool.redeemedOutpoints job.kind id at present
  unfold redeemedOutpoints at present
  cases kind : job.kind with
  | invalid =>
      rw [kind] at present
      contradiction
  | bounty =>
      rw [kind] at present
      exact Or.inr present
  | contract =>
      rw [kind] at present
      dsimp only at present
      cases found : pool.books.contracts.queue.get? id with
      | none =>
          rw [found] at present
          contradiction
      | some contract =>
          rw [found] at present
          exact Or.inl ⟨contract, List.mem_of_find?_eq_some found,
            by simpa using List.find?_some found, present⟩

end Steps

section Histories

variable {settings : PoolSettings α} {addresses : AddressBook} {history : List (Operation α)}

/-- Where listed scripts are only spent as a whole, no spent output is listed. -/
theorem listsUnspent_of_spendsWhole
    (chain : IsChain (Pays history))
    (whole : ∀ earlier operation later, history = earlier ++ operation :: later →
      ((fresh settings addresses).run earlier).SpendsWhole operation)
    {earlier later : List (Operation α)}
    (split : history = earlier ++ later) :
    ((fresh settings addresses).run earlier).ListsUnspent := by
  induction earlier using List.reverseRecOn generalizing later with
  | nil => exact fun _ outpoint _ => Ledger.spender?_of_unowned rfl
  | append_singleton earlier operation inductionHypothesis =>
      rw [List.append_assoc, List.singleton_append] at split
      rw [run_concat]
      exact (inductionHypothesis split).step (isTraced_of_split chain split) chain
        (pays_of_split split) (whole earlier operation later split)

/-- On a chain no spent output is listed or settled, exactly if every spending
of a listed output takes its whole script off the queues. -/
theorem settlesUnspent_iff_spendsWhole
    (settings : PoolSettings α)
    (addresses : AddressBook)
    (history : List (Operation α))
    (chain : IsChain (Pays history)) :
    (fresh settings addresses).SettlesUnspent history ↔
      ∀ earlier operation later, history = earlier ++ operation :: later →
        ((fresh settings addresses).run earlier).SpendsWhole operation := by
  constructor
  · intro unspent earlier operation later split
    have after : ((fresh settings addresses).run (earlier ++ [operation])).ListsUnspent :=
      unspent.listed (earlier ++ [operation]) later (by rw [split]; simp)
    rw [run_concat] at after
    exact after.spendsWhole (isTraced_of_split chain split)
  · intro whole
    refine ⟨fun earlier later split => listsUnspent_of_spendsWhole chain whole split, ?_⟩
    intro settling before draw outpoint spender between isEarlier known present
    have unspent := listsUnspent_of_spendsWhole chain whole settling.split settling.id outpoint
      (exists_lists_of_settled settling.completed present)
    have split : history = before ++ .spend draw outpoint spender ::
        (between ++ .complete settling.draw settling.id settling.solution :: settling.later) := by
      apply settling.split.trans
      rw [isEarlier, List.append_assoc, List.cons_append]
    obtain ⟨last, _, spent⟩ := spender?_of_spent chain split known
    rw [← isEarlier, unspent] at spent
    contradiction

/-- A completion that succeeds at the end of a history, with what it settles. -/
theorem exists_settling
    {earlier : List (Operation α)}
    {draw : α}
    {id : Digest}
    {solution : Option Solution}
    {outpoints : List Outpoint}
    (settles : ((start.run earlier).complete draw id solution).toOption.map
      (fun settled => settled.1.outpoints) = some outpoints) :
    ∃ settling : start.Settling (earlier ++ [.complete draw id solution]),
      settling.earlier = earlier ∧ settling.settlement.outpoints = outpoints := by
  cases completed : (start.run earlier).complete draw id solution with
  | error failure =>
      rw [completed] at settles
      contradiction
  | ok settled =>
      rw [completed] at settles
      exact ⟨⟨earlier, draw, id, solution, [], settled.1, settled.2, rfl, completed⟩, rfl,
        Option.some.inj settles⟩

/-- A bounty with two outputs is solved after one of them was spent. -/
def partlySpent : List (Operation Rat) :=
  [.pay ⟨0, 0⟩ 0 easyBounty 50 ⟨FixedBytes.filled 32 1, 0⟩,
    .pay ⟨1, 0⟩ 0 easyBounty 50 ⟨FixedBytes.filled 32 2, 0⟩,
    .assign ⟨⟨7⟩, 1 / 1000000000000⟩,
    .spend 0 ⟨FixedBytes.filled 32 1, 0⟩ (FixedBytes.filled 32 4),
    .complete 0 easyBounty.id (some ⟨0, 0, 0, 0⟩)]

/-- The spent output is settled all the same. -/
theorem not_settlesUnspent_partlySpent :
    ¬(fresh PoolSettings.usual AddressBook.counting).SettlesUnspent partlySpent := by
  intro unspent
  have settles : (((fresh PoolSettings.usual AddressBook.counting).run
      (partlySpent.take 4)).complete 0 easyBounty.id (some ⟨0, 0, 0, 0⟩)).toOption.map
        (fun settled => settled.1.outpoints) =
          some [⟨FixedBytes.filled 32 1, 0⟩, ⟨FixedBytes.filled 32 2, 0⟩] := by
    decide +kernel
  obtain ⟨settling, isEarlier, outpoints⟩ := exists_settling settles
  refine unspent.settled settling (partlySpent.take 3) 0 ⟨FixedBytes.filled 32 1, 0⟩
    (FixedBytes.filled 32 4) [] isEarlier (by decide +kernel) ?_
  rw [outpoints]
  exact List.mem_cons_self

/-- A bounty is spent and paid again before it is solved. -/
def spentAndPaidAgain : List (Operation Rat) :=
  [.pay ⟨0, 0⟩ 0 easyBounty 50 ⟨FixedBytes.filled 32 1, 0⟩,
    .spend 0 ⟨FixedBytes.filled 32 1, 0⟩ (FixedBytes.filled 32 4),
    .pay ⟨1, 0⟩ 0 easyBounty 50 ⟨FixedBytes.filled 32 2, 0⟩,
    .assign ⟨⟨7⟩, 1 / 1000000000000⟩,
    .complete 0 easyBounty.id (some ⟨0, 0, 0, 0⟩)]

theorem isChain_spentAndPaidAgain :
    IsChain (Pays spentAndPaidAgain) := by
  apply isChain_of_shown
  · simp only [spentAndPaidAgain, shown, List.map_cons, List.map_nil, List.forall_mem_cons]
    exact ⟨.bounty .., .bounty .., by simp⟩
  · decide +kernel

/-- Where the script was spent as a whole, only the new output is settled. -/
theorem settlesUnspent_iff_spendsWhole_spentAndPaidAgain :
    IsChain (Pays spentAndPaidAgain) ∧
      (((fresh PoolSettings.usual AddressBook.counting).run
          (spentAndPaidAgain.take 4)).complete 0 easyBounty.id (some ⟨0, 0, 0, 0⟩)).toOption.map
          (fun settled => settled.1.outpoints) = some [⟨FixedBytes.filled 32 2, 0⟩] ∧
      ((fresh PoolSettings.usual AddressBook.counting).SettlesUnspent spentAndPaidAgain ↔
        ∀ earlier operation later, spentAndPaidAgain = earlier ++ operation :: later →
          ((fresh PoolSettings.usual AddressBook.counting).run earlier).SpendsWhole operation) :=
  ⟨isChain_spentAndPaidAgain, by decide +kernel,
    settlesUnspent_iff_spendsWhole PoolSettings.usual AddressBook.counting spentAndPaidAgain
      isChain_spentAndPaidAgain⟩

end Histories

end Pool
end WorkMarket
