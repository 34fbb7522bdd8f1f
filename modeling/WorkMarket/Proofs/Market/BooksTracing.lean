import WorkMarket.Proofs.Market.BooksEvents
import WorkMarket.Proofs.Market.ContractJobs
import WorkMarket.Proofs.Market.LedgerRecords
import WorkMarket.Proofs.Market.RankedJobs

/-!
# What the books list and what the ledger knows

The queues list outputs under names.  On a chain, whatever addresses are handed
out, every listed output is registered under that name and no listed name is
redeemed.  An output that appears is listed only if the ledger did not know it;
an output that is spent is marked, and takes its script off the queues if
nothing of the script is left.
-/

namespace WorkMarket
namespace Books

variable {α : Type}

/-- An output that a queue lists under a name. -/
def Lists
    (books : Books α)
    (id : Digest)
    (outpoint : Outpoint) : Prop :=
  books.contracts.Holds id outpoint ∨ books.bounties.ranking.Holds id outpoint

variable [Scalar α] {books : Books α} {pays : LockingScript → Outpoint → Prop}

/-- The ledger and what the queues list are in step. -/
structure IsTraced
    (pays : LockingScript → Outpoint → Prop)
    (books : Books α) : Prop where
  ledger : books.ledger.IsTraced pays
  contracts : books.contracts.IsSound
  bounties : books.bounties.IsTidy
  registered : ∀ id outpoint, books.Lists id outpoint →
    books.ledger.owners.get? outpoint = some id
  unredeemed : ∀ id outpoint, books.Lists id outpoint →
    (books.ledger.get id).status ≠ .redeemed

theorem isTraced_empty
    (pays : LockingScript → Outpoint → Prop)
    (addresses : AddressBook)
    (costs : CostModel α) :
    (empty addresses costs).IsTraced pays where
  ledger := Ledger.isTraced_empty pays
  contracts := ContractSchedule.isSound_empty
  bounties := BountySchedule.isTidy_empty costs
  registered := by
    simp [empty, Lists, ContractSchedule.Holds, ContractSchedule.empty, ContractQueue.empty,
      BountySchedule.empty, Ranking.Holds]
  unredeemed := by
    simp [empty, Lists, ContractSchedule.Holds, ContractSchedule.empty, ContractQueue.empty,
      BountySchedule.empty, Ranking.Holds]

/-- What is queued as a contract is listed with an output. -/
theorem IsTraced.exists_lists_of_contract
    (traced : books.IsTraced pays)
    {id : Digest}
    (queued : books.contracts.queue.contains id = true) :
    ∃ outpoint, books.Lists id outpoint := by
  obtain ⟨contract, present, named⟩ := ContractSchedule.exists_of_contains queued
  obtain ⟨outpoint, inContract⟩ := List.exists_mem_of_ne_nil _
    (traced.contracts.sound contract present).outpoints_ne_nil
  exact ⟨outpoint, Or.inl ⟨contract, present, named, inContract⟩⟩

/-- What is ranked is listed with an output. -/
theorem IsTraced.exists_lists_of_bounty
    (traced : books.IsTraced pays)
    {id : Digest}
    (ranked : books.bounties.ranking.contains id = true) :
    ∃ outpoint, books.Lists id outpoint := by
  obtain ⟨outpoint, held⟩ := traced.bounties.ranking.exists_holds ranked
  exact ⟨outpoint, Or.inr held⟩

/-- A redeemed name is in neither queue. -/
theorem IsTraced.unqueued_of_redeemed
    (traced : books.IsTraced pays)
    {id : Digest}
    (redeemed : (books.ledger.get id).status = .redeemed) :
    books.contracts.queue.contains id = false ∧
      books.bounties.ranking.contains id = false := by
  constructor
  · rw [← Bool.not_eq_true]
    intro queued
    obtain ⟨outpoint, listed⟩ := traced.exists_lists_of_contract queued
    exact traced.unredeemed id outpoint listed redeemed
  · rw [← Bool.not_eq_true]
    intro ranked
    obtain ⟨outpoint, listed⟩ := traced.exists_lists_of_bounty ranked
    exact traced.unredeemed id outpoint listed redeemed

section Payment

variable {output : Output} {script : LockingScript} {outpoint : Outpoint} {now : Instant}
  {value : UInt64}

/-- Ranking lists no output but its own. -/
theorem of_lists_rankBounty
    {draw : α}
    {id : Digest}
    {held : Outpoint}
    (listed : (books.rankBounty output draw).Lists id held) :
    books.Lists id held ∨ id = output.id ∧ held = output.outpoint := by
  rcases books.rankBounty_cases output draw with ⟨_, noted⟩ | ⟨unranked, entered⟩
  · rw [noted] at listed
    rcases listed with contract | bounty
    · exact Or.inl (Or.inl contract)
    · exact (Ranking.of_holds_addOutput bounty).imp_left Or.inr
  · rw [entered] at listed
    rcases listed with contract | bounty
    · exact Or.inl (Or.inl contract)
    · dsimp only at bounty
      rw [BountySchedule.ranking_insert] at bounty
      exact (Ranking.of_holds_push unranked bounty).imp_left Or.inr

/-- Accepting a contract lists no output but its own. -/
theorem of_lists_acceptContract
    {id : Digest}
    {held : Outpoint}
    (listed : (books.acceptContract output).Lists id held) :
    books.Lists id held ∨ id = output.id ∧ held = output.outpoint := by
  rcases books.acceptContract_cases output with
    ⟨_, ignored⟩ | ⟨_, _, _, queued⟩ | ⟨_, _, _, noted⟩
  · rw [ignored] at listed
    exact Or.inl listed
  · rw [queued] at listed
    rcases listed with contract | bounty
    · exact (ContractSchedule.of_holds_insert contract).imp_left Or.inl
    · exact Or.inl (Or.inr bounty)
  · rw [noted] at listed
    rcases listed with contract | bounty
    · exact (ContractSchedule.of_holds_addOutput contract).imp_left Or.inl
    · exact Or.inl (Or.inr bounty)

/-- Whatever is ranked under its own name, the schedule stays tidy. -/
theorem isTidy_rankBounty
    (tidy : books.bounties.IsTidy)
    (named : output.script.id = output.id)
    (regular : output.script.IsRegular)
    (draw : α) :
    (books.rankBounty output draw).bounties.IsTidy := by
  rcases books.rankBounty_cases output draw with ⟨_, noted⟩ | ⟨unranked, entered⟩
  · rw [noted]
    exact tidy.addOutput output
  · rw [entered]
    exact tidy.insert named regular _ draw

/-- Whatever is accepted under its own name, the queue stays sound. -/
theorem isSound_acceptContract
    (sound : books.contracts.IsSound)
    (named : output.script.id = output.id)
    (regular : output.script.IsRegular) :
    (books.acceptContract output).contracts.IsSound := by
  rcases books.acceptContract_cases output with
    ⟨_, ignored⟩ | ⟨sale, _, _, queued⟩ | ⟨_, _, _, noted⟩
  · rw [ignored]
    exact sound
  · rw [queued]
    exact sound.insert named regular sale.secret
  · rw [noted]
    exact sound.addOutput output

/-- Traced books stay traced when no more is listed than an output that is
registered and whose script is not redeemed. -/
theorem IsTraced.of_listed
    (traced : books.IsTraced pays)
    {next : Books α}
    (ledger : next.ledger = books.ledger)
    (contracts : next.contracts.IsSound)
    (bounties : next.bounties.IsTidy)
    (listed : ∀ id held, next.Lists id held →
      books.Lists id held ∨ id = output.id ∧ held = output.outpoint)
    (registered : books.ledger.owners.get? output.outpoint = some output.id)
    (unredeemed : (books.ledger.get output.id).status ≠ .redeemed) :
    next.IsTraced pays where
  ledger := ledger ▸ traced.ledger
  contracts := contracts
  bounties := bounties
  registered := by
    intro id held inNext
    rw [ledger]
    rcases listed id held inNext with before | ⟨rfl, rfl⟩
    · exact traced.registered id held before
    · exact registered
  unredeemed := by
    intro id held inNext
    rw [ledger]
    rcases listed id held inNext with before | ⟨rfl, rfl⟩
    · exact traced.unredeemed id held before
    · exact unredeemed

/-- Putting a script of the chain into the ledger redeems nothing. -/
theorem IsTraced.put
    (traced : books.IsTraced pays)
    (paid : pays script outpoint)
    (now : Instant) :
    ({ books with ledger := (books.ledger.put now script).2 } : Books α).IsTraced pays where
  ledger := traced.ledger.put paid now
  contracts := traced.contracts
  bounties := traced.bounties
  registered := by
    rw [Ledger.owners_put]
    exact traced.registered
  unredeemed := fun id held listed redeemed =>
    traced.unredeemed id held listed (traced.ledger.isCurrent.redeemed_of_put redeemed)

/-- An output that is recorded is new to the ledger.  It is registered then,
and its script is not redeemed. -/
theorem IsTraced.recorded
    (traced : books.IsTraced pays)
    (chain : IsChain pays)
    (paid : pays script outpoint)
    (valid : script.isValid = true)
    (isNew : ((books.ledger.put now script).2.register now script.id value outpoint).1 = true) :
    (books.recorded now script value outpoint).IsTraced pays ∧
      books.ledger.owners.get? outpoint = none ∧
      (books.recorded now script value outpoint).ledger.owners.get? outpoint =
        some script.id ∧
      ((books.recorded now script value outpoint).ledger.get script.id).status ≠ .redeemed := by
  have putTraced := traced.put paid now
  have ledger : ((books.ledger.put now script).2.register now script.id value
      outpoint).2.IsTraced pays :=
    putTraced.ledger.register chain paid (books.ledger.isSome_entry_put now valid)
  rcases (books.ledger.put now script).2.register_cases now script.id value outpoint with
    known | ⟨_, fresh, owners, unredeemed, _, others⟩
  · rw [known] at isNew
    contradiction
  have unowned := putTraced.ledger.unowned_of_fresh chain paid fresh
  rw [Ledger.owners_put] at unowned owners
  refine ⟨⟨ledger, traced.contracts, traced.bounties, ?_, ?_⟩, unowned, ?_, unredeemed⟩
  · intro id held listed
    have before := traced.registered id held listed
    change ((books.ledger.put now script).2.register now script.id value outpoint).2.owners.get?
      held = some id
    rw [owners, Keyed.get?_put, if_neg]
    · exact before
    · rintro rfl
      rw [unowned] at before
      contradiction
  · intro id held listed
    by_cases same : id = script.id
    · rw [same]
      exact unredeemed
    · change (((books.ledger.put now script).2.register now script.id value outpoint).2.get
        id).status ≠ .redeemed
      rw [others id same]
      exact putTraced.unredeemed id held listed
  · change ((books.ledger.put now script).2.register now script.id value outpoint).2.owners.get?
      outpoint = some script.id
    rw [owners, Keyed.get?_put, if_pos rfl]

/-- Whatever output appears, the books stay traced. -/
theorem IsTraced.pay
    (traced : books.IsTraced pays)
    (chain : IsChain pays)
    (paid : pays script outpoint)
    (now : Instant)
    (draw : α)
    (value : UInt64) :
    (books.pay now draw script value outpoint).2.IsTraced pays := by
  have regular := (chain.built script outpoint paid).isRegular
  rcases books.pay_cases now draw script value outpoint with
    refused | known | ⟨valid, isNew, ⟨_, ranked⟩ | ⟨_, accepted⟩⟩
  · rw [refused]
    exact traced
  · rw [known]
    exact traced.put paid now
  · obtain ⟨recorded, _, registered, unredeemed⟩ := traced.recorded chain paid valid isNew
    rw [ranked]
    refine recorded.of_listed (ledger_rankBounty _ _ draw) ?_ ?_
      (fun _ _ => of_lists_rankBounty) registered unredeemed
    · rw [contracts_rankBounty]
      exact recorded.contracts
    · exact isTidy_rankBounty recorded.bounties rfl regular draw
  · obtain ⟨recorded, _, registered, unredeemed⟩ := traced.recorded chain paid valid isNew
    rw [accepted]
    refine recorded.of_listed (ledger_acceptContract _ _) ?_ ?_
      (fun _ _ => of_lists_acceptContract) registered unredeemed
    · exact isSound_acceptContract recorded.contracts rfl regular
    · rw [bounties_acceptContract]
      exact recorded.bounties

/-- Only an output that the ledger did not know is newly listed. -/
theorem IsTraced.of_lists_pay
    (traced : books.IsTraced pays)
    (chain : IsChain pays)
    (paid : pays script outpoint)
    {draw : α}
    {id : Digest}
    {held : Outpoint}
    (listed : (books.pay now draw script value outpoint).2.Lists id held) :
    books.Lists id held ∨ books.ledger.owners.get? held = none := by
  rcases books.pay_cases now draw script value outpoint with
    refused | known | ⟨valid, isNew, ⟨_, ranked⟩ | ⟨_, accepted⟩⟩
  · rw [refused] at listed
    exact Or.inl listed
  · rw [known] at listed
    exact Or.inl listed
  · obtain ⟨_, unowned, _, _⟩ := traced.recorded chain paid valid isNew
    rw [ranked] at listed
    rcases of_lists_rankBounty listed with before | ⟨_, rfl⟩
    · exact Or.inl before
    · exact Or.inr unowned
  · obtain ⟨_, unowned, _, _⟩ := traced.recorded chain paid valid isNew
    rw [accepted] at listed
    rcases of_lists_acceptContract listed with before | ⟨_, rfl⟩
    · exact Or.inl before
    · exact Or.inr unowned

theorem ledger_pay
    (books : Books α)
    (now : Instant)
    (draw : α)
    (script : LockingScript)
    (value : UInt64)
    (outpoint : Outpoint) :
    (books.pay now draw script value outpoint).2.ledger = books.ledger ∨
      (books.pay now draw script value outpoint).2.ledger = (books.ledger.put now script).2 ∨
      script.isValid = true ∧ (books.pay now draw script value outpoint).2.ledger =
        ((books.ledger.put now script).2.register now script.id value outpoint).2 := by
  rcases books.pay_cases now draw script value outpoint with
    refused | known | ⟨valid, _, ⟨_, ranked⟩ | ⟨_, accepted⟩⟩
  · exact Or.inl (by rw [refused])
  · exact Or.inr (Or.inl (by rw [known]))
  · exact Or.inr (Or.inr ⟨valid, by rw [ranked, ledger_rankBounty]; rfl⟩)
  · exact Or.inr (Or.inr ⟨valid, by rw [accepted, ledger_acceptContract]; rfl⟩)

/-- An output that appears is unspent, and spends nothing. -/
theorem IsTraced.spender?_pay
    (traced : books.IsTraced pays)
    (chain : IsChain pays)
    (paid : pays script outpoint)
    (now : Instant)
    (draw : α)
    (value : UInt64)
    (held : Outpoint) :
    (books.pay now draw script value outpoint).2.ledger.spender? held =
      books.ledger.spender? held := by
  rcases books.ledger_pay now draw script value outpoint with same | put | ⟨_, recorded⟩
  · rw [same]
  · rw [put, Ledger.spender?_put]
  · rw [recorded, (traced.ledger.put paid now).spender?_register chain paid, Ledger.spender?_put]

/-- An output stays with the script that it was registered for. -/
theorem IsTraced.owner_pay
    (traced : books.IsTraced pays)
    (chain : IsChain pays)
    (paid : pays script outpoint)
    {held : Outpoint}
    {id : Digest}
    (owned : books.ledger.owners.get? held = some id)
    (now : Instant)
    (draw : α)
    (value : UInt64) :
    (books.pay now draw script value outpoint).2.ledger.owners.get? held = some id := by
  have before : (books.ledger.put now script).2.owners.get? held = some id := by
    rw [Ledger.owners_put]
    exact owned
  rcases books.ledger_pay now draw script value outpoint with same | put | ⟨_, recorded⟩
  · rw [same]
    exact owned
  · rw [put]
    exact before
  · rw [recorded]
    rcases (books.ledger.put now script).2.register_cases now script.id value outpoint with
      refused | ⟨_, fresh, owners, _⟩
    · rw [refused]
      exact before
    · have unowned := (traced.ledger.put paid now).unowned_of_fresh chain paid fresh
      rw [owners, Keyed.get?_put, if_neg]
      · exact before
      · rintro rfl
        rw [unowned] at before
        contradiction

end Payment

section Spending

variable {outpoint : Outpoint} {spender : Digest} {draw : α}

/-- Spending concerns the script for which the output is registered.  If that is
redeemed thereby, it leaves both queues. -/
theorem IsTraced.spend_cases
    (traced : books.IsTraced pays)
    (draw : α)
    (outpoint : Outpoint)
    (spender : Digest) :
    books.ledger.owners.get? outpoint = none ∧
        books.spend draw outpoint spender = (none, books) ∨
      ∃ id, books.ledger.owners.get? outpoint = some id ∧
        (∀ other, other ≠ id →
          (books.ledger.redeem outpoint spender).2.get other = books.ledger.get other) ∧
        (((books.ledger.redeem outpoint spender).2.get id).status ≠ .redeemed ∧
            books.spend draw outpoint spender =
              (none, { books with ledger := (books.ledger.redeem outpoint spender).2 }) ∨
          ((books.ledger.redeem outpoint spender).2.get id).status = .redeemed ∧
            books.spend draw outpoint spender =
              (some id,
                { books with
                  ledger := (books.ledger.redeem outpoint spender).2
                  contracts := (books.contracts.remove id).2
                  bounties := (books.bounties.remove id draw).2 })) := by
  rcases traced.ledger.redeem_cases outpoint spender with
    ⟨unowned, unknown⟩ | ⟨id, entry, owned, _, answer, spent⟩
  · refine Or.inl ⟨unowned, ?_⟩
    unfold spend
    rw [unknown]
  · refine Or.inr ⟨id, owned, ?_, ?_⟩
    · intro other different
      rw [spent, Ledger.get_put, if_neg (Ne.symm different)]
    · unfold spend
      cases redeem : books.ledger.redeem outpoint spender with
      | mk answered ledger =>
          rw [redeem] at answer
          dsimp only at answer ⊢
          subst answer
          cases (ledger.get id).status with
          | redeemed => exact Or.inr ⟨rfl, rfl⟩
          | unknown | unspent | unredeemed | partiallyRedeemed => exact Or.inl ⟨by simp, rfl⟩

/-- Spending lists nothing new, and no more anything under a name that is
redeemed. -/
theorem IsTraced.of_lists_spend
    (traced : books.IsTraced pays)
    {id : Digest}
    {held : Outpoint}
    (listed : (books.spend draw outpoint spender).2.Lists id held) :
    books.Lists id held ∧ (books.spend draw outpoint spender).1 ≠ some id := by
  rcases traced.spend_cases draw outpoint spender with
    ⟨_, unknown⟩ | ⟨redeemed, _, _, ⟨_, kept⟩ | ⟨_, left⟩⟩
  · rw [unknown] at listed ⊢
    exact ⟨listed, by simp⟩
  · rw [kept] at listed ⊢
    exact ⟨listed, by simp⟩
  · rw [left] at listed ⊢
    rcases listed with contract | bounty
    · obtain ⟨different, before⟩ := ContractSchedule.of_holds_remove contract
      exact ⟨Or.inl before, fun same => different (Option.some.inj same).symm⟩
    · dsimp only at bounty
      rw [BountySchedule.ranking_remove] at bounty
      obtain ⟨different, before⟩ := Ranking.of_holds_remove bounty
      exact ⟨Or.inr before, fun same => different (Option.some.inj same).symm⟩

theorem ledger_spend
    (books : Books α)
    (draw : α)
    (outpoint : Outpoint)
    (spender : Digest) :
    (books.spend draw outpoint spender).2.ledger = (books.ledger.redeem outpoint spender).2 := by
  unfold spend
  cases books.ledger.redeem outpoint spender with
  | mk found ledger =>
      dsimp only
      split <;> rfl

/-- Whatever output is spent, the books stay traced. -/
theorem IsTraced.spend
    (traced : books.IsTraced pays)
    (draw : α)
    (outpoint : Outpoint)
    (spender : Digest) :
    (books.spend draw outpoint spender).2.IsTraced pays := by
  have ledger := traced.ledger.redeem outpoint spender
  have registered (id : Digest) (held : Outpoint)
      (inNext : (books.spend draw outpoint spender).2.Lists id held) :
      (books.spend draw outpoint spender).2.ledger.owners.get? held = some id := by
    rw [owners_spend]
    exact traced.registered id held (traced.of_lists_spend inNext).1
  have unredeemed (id : Digest) (held : Outpoint)
      (inNext : (books.spend draw outpoint spender).2.Lists id held) :
      ((books.spend draw outpoint spender).2.ledger.get id).status ≠ .redeemed := by
    obtain ⟨before, still⟩ := traced.of_lists_spend inNext
    rw [ledger_spend]
    rcases traced.spend_cases draw outpoint spender with
      ⟨_, unknown⟩ | ⟨owner, _, others, ⟨partly, _⟩ | ⟨_, left⟩⟩
    · rw [← ledger_spend books draw, unknown]
      exact traced.unredeemed id held before
    · by_cases same : id = owner
      · rw [same]
        exact partly
      · rw [others id same]
        exact traced.unredeemed id held before
    · have different : id ≠ owner := by
        rintro rfl
        rw [left] at still
        exact still rfl
      rw [others id different]
      exact traced.unredeemed id held before
  refine ⟨?_, ?_, ?_, registered, unredeemed⟩
  · rw [ledger_spend]
    exact ledger
  · rcases books.spend_cases draw outpoint spender with unknown | ⟨id, _, ⟨_, kept⟩ | left⟩
    · rw [unknown]
      exact traced.contracts
    · rw [kept]
      exact traced.contracts
    · rw [left]
      exact traced.contracts.remove id
  · rcases books.spend_cases draw outpoint spender with unknown | ⟨id, _, ⟨_, kept⟩ | left⟩
    · rw [unknown]
      exact traced.bounties
    · rw [kept]
      exact traced.bounties
    · rw [left]
      exact traced.bounties.remove id draw

end Spending

end Books
end WorkMarket
