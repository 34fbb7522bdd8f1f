import WorkMarket.Proofs.Market.AddressedBounties
import WorkMarket.Proofs.Pool.Operations

/-!
# What becomes of a reported bounty

A payment is answered with the kind of its script.  A bounty that is ranked gets
another output.  Any other is given an address before the ranking looks at its
target; it enters if the target is valid, and is dropped if not.  So what is
answered as a bounty is queued exactly if its target is valid or it was queued
before, and only then is an address taken for a bounty that enters.
-/

namespace WorkMarket

namespace Ranking

variable {α : Type} {ranking : Ranking α} {output : Output}

/-- An output that is noted is among those of its name. -/
theorem mem_outpoints_addOutput
    (ranked : ranking.contains output.id = true) :
    output.outpoint ∈ (ranking.addOutput output).2.outpoints output.id := by
  rw [outpoints_addOutput, if_pos ⟨ranked, rfl⟩]
  exact mem_withOutpoint.mpr (Or.inr rfl)

variable [Scalar α]

/-- A bounty that is not ranked enters exactly if its target is valid. -/
theorem contains_push_of_unranked
    (bounty : output.script.kind = .bounty)
    (unranked : ranking.contains output.id = false) :
    (ranking.push output).contains output.id = output.script.target.isValid := by
  rcases ranking.push_cases output with
    ⟨other, _⟩ | ⟨_, known, _⟩ | ⟨_, _, invalid, same⟩ | ⟨_, difficulty, found, enters⟩
  · exact absurd bounty other
  · rw [known] at unranked
    contradiction
  · rw [same, unranked, invalid]
  · rw [((Target.difficulty_eq_ok_iff _ _).mp found).1, enters.contains_eq]
    simp [RankedBounty.ofOutput]

/-- A bounty that enters brings its output. -/
theorem mem_outpoints_push_of_unranked
    (unranked : ranking.contains output.id = false)
    (ranked : (ranking.push output).contains output.id = true) :
    output.outpoint ∈ (ranking.push output).outpoints output.id := by
  rcases ranking.push_of_unranked output unranked with same | ⟨_, _, _, enters⟩
  · rw [same, unranked] at ranked
    contradiction
  · rw [enters.outpoints_eq, RankedBounty.ofOutput, if_pos rfl]
    exact List.mem_cons_self

end Ranking

namespace Books

section Answers

variable {α : Type} {books next : Books α} {kind : ScriptKind}

/-- Whether a name enters the ranking from some books to the next. -/
def Ranks
    (books next : Books α)
    (id : Digest) : Prop :=
  books.bounties.ranking.contains id = false ∧ next.bounties.ranking.contains id = true

/-- Whether the answer to a payment tells what became of it.  What is answered as
a bounty is ranked as an entry and with its output, and an address is recorded for
it.  An address is taken exactly if the script enters the ranking, and is the one
that is recorded. -/
structure QueuesReported
    (books next : Books α)
    (kind : ScriptKind)
    (script : LockingScript)
    (outpoint : Outpoint) : Prop where
  ranked : kind = .bounty → next.bounties.ranking.contains script.id = true
  entered : kind = .bounty → ∃ entry ∈ next.bounties.ranking.entries, entry.id = script.id
  listed : kind = .bounty → outpoint ∈ next.bounties.ranking.outpoints script.id
  addressed : kind = .bounty → (next.bounties.redeemAddress? script.id).isSome = true
  taken : books.Ranks next script.id →
    next.addresses = books.addresses.issue.2 ∧
      next.bounties.redeemAddress? script.id = some books.addresses.issue.1
  kept : ¬books.Ranks next script.id → next.addresses = books.addresses

/-- An answer other than a bounty is right where nothing happens to the bounties. -/
theorem queuesReported_of_bounties_eq
    (other : kind ≠ .bounty)
    (bounties : next.bounties = books.bounties)
    (addresses : next.addresses = books.addresses)
    (script : LockingScript)
    (outpoint : Outpoint) :
    books.QueuesReported next kind script outpoint where
  ranked := fun bounty => absurd bounty other
  entered := fun bounty => absurd bounty other
  listed := fun bounty => absurd bounty other
  addressed := fun bounty => absurd bounty other
  taken := by
    rintro ⟨unranked, ranked⟩
    rw [bounties, unranked] at ranked
    contradiction
  kept := fun _ => addresses

end Answers

variable {α : Type} [Scalar α] {books : Books α} {script : LockingScript}

section Addresses

theorem isAddressed_rankBounty
    (kept : books.bounties.IsAddressed)
    (output : Output)
    (draw : α) :
    (books.rankBounty output draw).bounties.IsAddressed := by
  rcases books.rankBounty_cases output draw with ⟨_, noted⟩ | ⟨_, entered⟩
  · rw [noted]
    exact kept.addOutput output
  · rw [entered]
    exact BountySchedule.isInvariant_isAddressed.insert kept trivial draw

theorem isAddressed_pay
    (kept : books.bounties.IsAddressed)
    (now : Instant)
    (draw : α)
    (script : LockingScript)
    (value : UInt64)
    (outpoint : Outpoint) :
    (books.pay now draw script value outpoint).2.bounties.IsAddressed := by
  rcases books.pay_cases now draw script value outpoint with
    refused | known | ⟨_, _, ⟨_, ranked⟩ | ⟨_, accepted⟩⟩
  · rw [refused]
    exact kept
  · rw [known]
    exact kept
  · have recorded : (books.recorded now script value outpoint).bounties.IsAddressed := kept
    rw [ranked]
    exact isAddressed_rankBounty recorded _ draw
  · rw [accepted, bounties_acceptContract]
    exact kept

theorem isAddressed_spend
    (kept : books.bounties.IsAddressed)
    (draw : α)
    (outpoint : Outpoint)
    (spender : Digest) :
    (books.spend draw outpoint spender).2.bounties.IsAddressed := by
  rcases books.spend_cases draw outpoint spender with
    unknown | ⟨id, _, ⟨_, noted⟩ | redeemed⟩
  · rw [unknown]
    exact kept
  · rw [noted]
    exact kept
  · rw [redeemed]
    exact BountySchedule.isInvariant_isAddressed.remove kept id draw

end Addresses

section Reports

/-- A bounty that is ranked already only gets another output. -/
theorem queuesReported_of_ranked
    (kept : books.bounties.IsAddressed)
    (known : books.bounties.ranking.contains script.id = true)
    (now : Instant)
    (value : UInt64)
    (outpoint : Outpoint)
    (draw : α) :
    books.QueuesReported
      ((books.recorded now script value outpoint).rankBounty
        (Output.ofScript outpoint script value) draw)
      .bounty script outpoint := by
  rcases (books.recorded now script value outpoint).rankBounty_cases
    (Output.ofScript outpoint script value) draw with ⟨_, noted⟩ | ⟨unranked, _⟩
  · have next := kept.addOutput (Output.ofScript outpoint script value)
    have ranked := (books.bounties.ranking.contains_addOutput
      (Output.ofScript outpoint script value) script.id).trans known
    rw [noted]
    refine
      { ranked := fun _ => ranked
        entered := fun _ => (next.agrees.contains_iff script.id).mp ranked
        listed := fun _ => Ranking.mem_outpoints_addOutput known
        addressed := fun _ => (kept.addressed script.id).trans known
        taken := ?_
        kept := fun _ => rfl }
    rintro ⟨unranked, _⟩
    rw [known] at unranked
    contradiction
  · change books.bounties.ranking.contains script.id = false at unranked
    rw [known] at unranked
    contradiction

/-- A bounty that is not ranked takes an address.  It is ranked, and so deserves
one, exactly if its target is valid. -/
theorem queuesReported_iff_of_unranked
    (kept : books.bounties.IsAddressed)
    (bounty : script.kind = .bounty)
    (unranked : books.bounties.ranking.contains script.id = false)
    (now : Instant)
    (value : UInt64)
    (outpoint : Outpoint)
    (draw : α) :
    books.QueuesReported
        ((books.recorded now script value outpoint).rankBounty
          (Output.ofScript outpoint script value) draw)
        .bounty script outpoint ↔
      script.target.isValid = true := by
  rcases (books.recorded now script value outpoint).rankBounty_cases
    (Output.ofScript outpoint script value) draw with ⟨known, _⟩ | ⟨_, entered⟩
  · change books.bounties.ranking.contains script.id = true at known
    rw [known] at unranked
    contradiction
  rw [entered]
  let inserted : BountySchedule α := books.bounties.insert
    ⟨Output.ofScript outpoint script value, books.addresses.issue.1⟩ draw
  have ranking : inserted.ranking =
      books.bounties.ranking.push (Output.ofScript outpoint script value) :=
    books.bounties.ranking_insert _ draw
  have enters : inserted.ranking.contains script.id = script.target.isValid := by
    rw [ranking]
    exact Ranking.contains_push_of_unranked bounty unranked
  constructor
  · exact fun reported => enters.symm.trans (reported.ranked rfl)
  · intro valid
    have ranked : inserted.ranking.contains script.id = true := enters.trans valid
    have recorded : inserted.redeemAddress? script.id = some books.addresses.issue.1 :=
      (books.bounties.redeemAddress?_insert _ draw script.id).trans (if_pos ⟨unranked, ranked⟩)
    have listed : outpoint ∈ inserted.ranking.outpoints script.id := by
      rw [ranking] at ranked ⊢
      exact Ranking.mem_outpoints_push_of_unranked unranked ranked
    have agrees : inserted.ranking.Agrees :=
      (BountySchedule.isInvariant_isAddressed.insert kept trivial draw).agrees
    exact
      { ranked := fun _ => ranked
        entered := fun _ => (agrees.contains_iff script.id).mp ranked
        listed := fun _ => listed
        addressed := fun _ => Option.isSome_iff_exists.mpr ⟨_, recorded⟩
        taken := fun _ => ⟨rfl, recorded⟩
        kept := fun stays => absurd ⟨unranked, ranked⟩ stays }

/-- A payment is answered rightly unless a bounty that is not ranked has no valid
target. -/
theorem queuesReported_pay_iff
    (kept : books.bounties.IsAddressed)
    (now : Instant)
    (draw : α)
    (script : LockingScript)
    (value : UInt64)
    (outpoint : Outpoint) :
    books.QueuesReported (books.pay now draw script value outpoint).2
        (books.pay now draw script value outpoint).1 script outpoint ↔
      ((books.pay now draw script value outpoint).1 = .bounty →
        script.target.isValid = true ∨ books.bounties.ranking.contains script.id = true) := by
  rcases books.pay_cases now draw script value outpoint with
    refused | known | ⟨_, _, ⟨bounty, ranked⟩ | ⟨_, accepted⟩⟩
  · rw [refused]
    refine iff_of_true (queuesReported_of_bounties_eq ?_ rfl rfl script outpoint) nofun
    simp
  · rw [known]
    refine iff_of_true (queuesReported_of_bounties_eq ?_ ?_ ?_ script outpoint) nofun
    · simp
    · rfl
    · rfl
  · rw [ranked]
    cases already : books.bounties.ranking.contains script.id with
    | true =>
        exact iff_of_true (queuesReported_of_ranked kept already now value outpoint draw)
          fun _ => Or.inr rfl
    | false =>
        refine (queuesReported_iff_of_unranked kept bounty already now value outpoint draw).trans ?_
        simp
  · rw [accepted]
    refine iff_of_true (queuesReported_of_bounties_eq ?_ ?_ ?_ script outpoint) nofun
    · simp
    · rw [bounties_acceptContract]
      rfl
    · rw [addresses_acceptContract]
      rfl

end Reports

end Books

namespace Pool

variable {α : Type} [Scalar α] {pool : Pool α}

/-- Whatever happens to a pool, addresses are recorded for just the ranked
bounties. -/
theorem isAddressed_step
    (kept : pool.books.bounties.IsAddressed)
    (operation : Operation α) :
    (pool.step operation).books.bounties.IsAddressed := by
  have changed := pool.booksStep operation
  generalize (pool.step operation).books = next at changed ⊢
  cases changed with
  | pay now draw script value outpoint =>
      exact Books.isAddressed_pay kept now draw script value outpoint
  | spend draw outpoint spender => exact Books.isAddressed_spend kept draw outpoint spender
  | offer => exact kept
  | complete draw id solution job tracked =>
      unfold retire
      cases job.kind with
      | bounty => exact BountySchedule.isInvariant_isAddressed.finish kept job.puzzle draw
      | contract | invalid => exact kept
  | kept => exact kept

theorem isAddressed_run
    (settings : PoolSettings α)
    (addresses : AddressBook)
    (history : List (Operation α)) :
    ((fresh settings addresses).run history).books.bounties.IsAddressed := by
  unfold run
  apply List.foldlRecOn (motive := fun pool => pool.books.bounties.IsAddressed) history step
    (BountySchedule.isAddressed_empty settings.costs)
  intro pool kept operation _
  exact isAddressed_step kept operation

/-- Whether what a pool answers to a payment is what becomes of it. -/
def Reports
    (pool : Pool α)
    (now : Instant)
    (draw : α)
    (script : LockingScript)
    (value : UInt64)
    (outpoint : Outpoint) : Prop :=
  pool.books.QueuesReported (pool.pay now draw script value outpoint).2.books
    (pool.pay now draw script value outpoint).1 script outpoint

/-- Whatever happened to a pool, what it answers to a payment is what becomes of
it, exactly if every bounty that it reports has a valid target or was ranked
before. -/
theorem reports_iff_valid_or_ranked
    (settings : PoolSettings α)
    (addresses : AddressBook)
    (history : List (Operation α))
    (now : Instant)
    (draw : α)
    (script : LockingScript)
    (value : UInt64)
    (outpoint : Outpoint) :
    ((fresh settings addresses).run history).Reports now draw script value outpoint ↔
      ((((fresh settings addresses).run history).pay now draw script value outpoint).1 =
          .bounty →
        script.target.isValid = true ∨
          ((fresh settings addresses).run history).books.bounties.ranking.contains script.id =
            true) :=
  Books.queuesReported_pay_iff (isAddressed_run settings addresses history) now draw script value
    outpoint

/-- A bounty that nobody can solve. -/
def unsolvableBounty : LockingScript :=
  .bounty 0 (.filled 32 0x11) ⟨0⟩ [] 1 []

/-- It is reported and takes an address, and is not ranked. -/
theorem not_reports_unsolvableBounty :
    ((fresh (PoolSettings.usual : PoolSettings Rat) (AddressBook.ofSeed (.filled 32 1))).pay
        ⟨0, 0⟩ 0 unsolvableBounty 1000 ⟨.filled 32 5, 0⟩).1 = .bounty ∧
      ¬(fresh (PoolSettings.usual : PoolSettings Rat) (AddressBook.ofSeed (.filled 32 1))).Reports
        ⟨0, 0⟩ 0 unsolvableBounty 1000 ⟨.filled 32 5, 0⟩ := by
  refine ⟨by decide +kernel, fun reported => ?_⟩
  exact absurd (reported.ranked (by decide +kernel)) (by decide +kernel)

end Pool
end WorkMarket
