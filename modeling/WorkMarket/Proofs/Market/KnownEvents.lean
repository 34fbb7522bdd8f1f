import WorkMarket.Proofs.Market.BooksTracing

/-!
# Events that the books know

The ledger keeps every entry and every owner.  An output that it knows is
refused without a change, and so is a spending that it has noted: if the script
is redeemed by now, neither queue has anything left to take away.
-/

namespace WorkMarket

namespace ContractSchedule

variable {α : Type} [Scalar α] {schedule : ContractSchedule α}

/-- Taking a name away that is not queued changes nothing. -/
theorem IsSound.remove_of_unqueued
    (sound : schedule.IsSound)
    {id : Digest}
    (unqueued : schedule.queue.contains id = false) :
    (schedule.remove id).2 = schedule := by
  have others : ∀ contract ∈ schedule.queue.jobs, contract.output.id ≠ id := by
    simpa [ContractQueue.contains, ContractQueue.get?] using unqueued
  have removed : schedule.queue.remove id = ([], schedule.queue) := by
    unfold ContractQueue.remove
    rw [List.partition_eq_filter_filter,
      List.filter_eq_nil_iff.mpr fun contract present => by simpa using others contract present,
      List.filter_eq_self.mpr fun contract present => by simpa using others contract present]
    rfl
  unfold ContractSchedule.remove
  rw [removed]
  exact congrArg (ContractSchedule.mk schedule.queue) sound.selected.symm

end ContractSchedule

namespace Books

variable {α : Type} [Scalar α] {books : Books α} {pays : LockingScript → Outpoint → Prop}
  {script : LockingScript} {outpoint : Outpoint}

/-- What appeared is known. -/
theorem knows_pay
    (books : Books α)
    (now : Instant)
    (draw : α)
    (script : LockingScript)
    (value : UInt64)
    (outpoint : Outpoint) :
    (books.pay now draw script value outpoint).2.ledger.Knows script outpoint := by
  intro valid outpointValid
  have entry := books.ledger.isSome_entry_put now valid
  have ledger : (books.pay now draw script value outpoint).2.ledger =
      ((books.ledger.put now script).2.register now script.id value outpoint).2 := by
    unfold pay
    rw [if_pos ⟨valid, outpointValid⟩]
    dsimp only
    split
    · split
      · rfl
      · exact ledger_rankBounty _ _ draw
      · exact ledger_acceptContract _ _
    · rfl
  rw [ledger]
  refine ⟨Ledger.isSome_entry_register entry now value outpoint, ?_⟩
  intro named
  rcases (books.ledger.put now script).2.register_cases now script.id value outpoint with
    refused | ⟨_, _, owners, _⟩
  · -- With a valid name and a valid output only a known output is refused.
    unfold Ledger.register at refused
    split at refused
    · rename_i known
      simp only [named, outpointValid, Bool.not_true, Bool.false_or, decide_eq_true_eq] at known
      unfold Ledger.register
      rw [if_pos (by simp [known])]
      exact known
    · exact absurd (congrArg Prod.fst refused) (by simp)
  · rw [owners, Keyed.get?_put, if_pos rfl]

/-- What is known and appears again changes nothing. -/
theorem IsTraced.pay_of_knows
    (traced : books.IsTraced pays)
    (names : NamesDiffer pays)
    (paid : pays script outpoint)
    (knows : books.ledger.Knows script outpoint)
    (now : Instant)
    (draw : α)
    (value : UInt64) :
    books.pay now draw script value outpoint = (.invalid, books) := by
  unfold Books.pay
  split
  · rename_i valid
    obtain ⟨isEntry, isOwner⟩ := knows valid.1 valid.2
    obtain ⟨entry, found⟩ := Option.isSome_iff_exists.mp isEntry
    obtain ⟨other, otherOutpoint, otherPaid, otherValid, named, isOf⟩ :=
      traced.ledger.filed script.id entry found
    obtain rfl : other = script :=
      names other script otherOutpoint outpoint otherPaid paid otherValid valid.1 named
    have refused : books.ledger.register now other.id value outpoint = (false, books.ledger) := by
      unfold Ledger.register
      refine if_pos ?_
      by_cases isNamed : other.id.isValid = true
      · simp [isOwner isNamed]
      · simp [isNamed]
    dsimp only
    rw [Ledger.put_of_isOf valid.1 found isOf, refused]
    rfl
  · rfl

/-- An output that appears redeems nothing. -/
theorem IsTraced.redeemed_of_pay
    (traced : books.IsTraced pays)
    {now : Instant}
    {draw : α}
    {value : UInt64}
    {id : Digest}
    (redeemed :
      ((books.pay now draw script value outpoint).2.ledger.get id).status = .redeemed) :
    (books.ledger.get id).status = .redeemed := by
  have current := traced.ledger.isCurrent
  rcases books.ledger_pay now draw script value outpoint with same | put | ⟨_, recorded⟩
  · rw [same] at redeemed
    exact redeemed
  · rw [put] at redeemed
    exact current.redeemed_of_put redeemed
  · rw [recorded] at redeemed
    rcases (books.ledger.put now script).2.register_cases now script.id value outpoint with
      refused | ⟨_, _, _, unredeemed, _, others⟩
    · rw [refused] at redeemed
      exact current.redeemed_of_put redeemed
    · by_cases same : id = script.id
      · rw [same] at redeemed
        exact absurd redeemed unredeemed
      · rw [others id same] at redeemed
        exact current.redeemed_of_put redeemed

/-- Spending again what the same transaction spent leaves the books as they
are. -/
theorem IsTraced.spend_of_spent
    (traced : books.IsTraced pays)
    {spender : Digest}
    (spent : books.ledger.spender? outpoint = some spender)
    (draw : α) :
    (books.spend draw outpoint spender).2 = books ∧
      ∀ id, (books.spend draw outpoint spender).1 = some id →
        (books.ledger.get id).status = .redeemed := by
  obtain ⟨id, _, redeem⟩ := traced.ledger.redeem_of_spent spent
  unfold Books.spend
  rw [redeem]
  cases status : (books.ledger.get id).status with
  | redeemed =>
      obtain ⟨unqueued, unranked⟩ := traced.unqueued_of_redeemed status
      dsimp only
      rw [traced.contracts.remove_of_unqueued unqueued,
        traced.bounties.remove_of_unranked unranked]
      refine ⟨rfl, ?_⟩
      rintro other ⟨⟩
      exact status
  | unknown | unspent | unredeemed | partiallyRedeemed => exact ⟨rfl, by simp⟩

end Books
end WorkMarket
