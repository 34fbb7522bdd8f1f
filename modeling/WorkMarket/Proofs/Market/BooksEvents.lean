import WorkMarket.Market.Books
import WorkMarket.Proofs.Market.OutputStatus
import WorkMarket.Proofs.Market.RankLookup

/-!
# What an event does to the books

An output that appears is recorded, and then noted, ranked, accepted or left
alone; one that is spent may take its script off both schedules.  Everything
else about the books comes from these cases: what is left as it was, that the
ledger forgets no output, that one address is taken at most, and that a sale
keeps its key.
-/

namespace WorkMarket

/-- A status is changed where the sale stands. -/
theorem SalesBook.get?_update
    {sales : SalesBook}
    {id : Digest}
    {sale : Sale}
    (found : Keyed.get? sales id = some sale)
    (status : SaleStatus)
    (other : Digest) :
    Keyed.get? (SalesBook.update sales id status).2 other =
      if id = other then some { sale with status := status } else Keyed.get? sales other := by
  unfold SalesBook.update
  rw [found]
  exact Keyed.get?_put sales id other _

/-- Whether every sale was there before, with its key. -/
def SalesBook.Continue
    (sales next : SalesBook) : Prop :=
  ∀ id sale, Keyed.get? next id = some sale →
    ∃ earlier, Keyed.get? sales id = some earlier ∧ sale.secret = earlier.secret

theorem SalesBook.continue_refl
    (sales : SalesBook) :
    sales.Continue sales :=
  fun _ sale found => ⟨sale, found, rfl⟩

/-- A status is changed only where there is a sale, and its key stays. -/
theorem SalesBook.continue_update
    (sales : SalesBook)
    (id : Digest)
    (status : SaleStatus) :
    sales.Continue (SalesBook.update sales id status).2 := by
  intro other sale found
  cases before : Keyed.get? sales id with
  | none =>
      unfold SalesBook.update at found
      rw [before] at found
      exact ⟨sale, found, rfl⟩
  | some earlier =>
      rw [SalesBook.get?_update before] at found
      split at found
      · rename_i same
        subst same
        obtain rfl := Option.some.inj found
        exact ⟨earlier, before, rfl⟩
      · exact ⟨sale, found, rfl⟩

namespace Books

variable {α : Type} [Scalar α] {books : Books α}

section Cases

/-- Ranking notes the output of a bounty that is ranked, and hands an address
out for any other. -/
theorem rankBounty_cases
    (books : Books α)
    (output : Output)
    (draw : α) :
    books.bounties.ranking.contains output.id = true ∧
        books.rankBounty output draw =
          { books with bounties := (books.bounties.addOutput output).2 } ∨
      books.bounties.ranking.contains output.id = false ∧
        books.rankBounty output draw =
          { books with
            addresses := books.addresses.issue.2
            bounties := books.bounties.insert ⟨output, books.addresses.issue.1⟩ draw } := by
  have answer : (books.bounties.addOutput output).1 = books.bounties.ranking.contains output.id :=
    books.bounties.ranking.fst_addOutput output
  unfold rankBounty
  cases added : books.bounties.addOutput output with
  | mk known bounties =>
      rw [added] at answer
      cases known with
      | true => exact Or.inl ⟨answer.symm, rfl⟩
      | false => exact Or.inr ⟨answer.symm, rfl⟩

/-- A contract is queued if it is offered, notes the output if it is accepted,
and is left alone otherwise. -/
theorem acceptContract_cases
    (books : Books α)
    (output : Output) :
    ((∀ sale, Keyed.get? books.sales output.id = some sale → sale.status ≠ .accepted) ∧
        books.acceptContract output = books) ∨
      (∃ sale, Keyed.get? books.sales output.id = some sale ∧ sale.status = .offered ∧
        books.acceptContract output =
          { books with
            contracts := books.contracts.insert (ContractJob.ofOutput output sale.secret)
            sales := (SalesBook.update books.sales output.id .accepted).2 }) ∨
      ∃ sale, Keyed.get? books.sales output.id = some sale ∧ sale.status = .accepted ∧
        books.acceptContract output =
          { books with contracts := (books.contracts.addOutput output).2 } := by
  unfold acceptContract
  cases found : Keyed.get? books.sales output.id with
  | none => exact Or.inl ⟨by simp, rfl⟩
  | some sale =>
      dsimp only
      cases status : sale.status with
      | offered => exact Or.inr (Or.inl ⟨sale, rfl, status, rfl⟩)
      | accepted => exact Or.inr (Or.inr ⟨sale, rfl, status, rfl⟩)
      | notOurs | working | completed =>
          refine Or.inl ⟨?_, rfl⟩
          rintro other ⟨⟩
          rw [status]
          simp

/-- The books after a script was put and its output registered. -/
def recorded
    (books : Books α)
    (now : Instant)
    (script : LockingScript)
    (value : UInt64)
    (outpoint : Outpoint) :
    Books α :=
  { books with
    ledger := ((books.ledger.put now script).2.register now script.id value outpoint).2 }

/-- An output is refused, or it is new and goes where its kind belongs. -/
theorem pay_cases
    (books : Books α)
    (now : Instant)
    (draw : α)
    (script : LockingScript)
    (value : UInt64)
    (outpoint : Outpoint) :
    books.pay now draw script value outpoint = (.invalid, books) ∨
      books.pay now draw script value outpoint =
        (.invalid, { books with ledger := (books.ledger.put now script).2 }) ∨
      script.isValid = true ∧
        ((books.ledger.put now script).2.register now script.id value outpoint).1 = true ∧
        (script.kind = .bounty ∧
            books.pay now draw script value outpoint =
              (.bounty, (books.recorded now script value outpoint).rankBounty
                (Output.ofScript outpoint script value) draw) ∨
          script.kind = .contract ∧
            books.pay now draw script value outpoint =
              (.contract, (books.recorded now script value outpoint).acceptContract
                (Output.ofScript outpoint script value))) := by
  unfold pay recorded
  split
  · rename_i valid
    dsimp only
    rcases (books.ledger.put now script).2.register_cases now script.id value outpoint with
      known | ⟨fresh, _⟩
    · rw [known]
      exact Or.inr (Or.inl rfl)
    · rw [fresh]
      refine Or.inr (Or.inr ⟨valid.1, rfl, ?_⟩)
      cases kind : script.kind with
      | invalid =>
          rw [LockingScript.isValid, kind] at valid
          exact absurd valid.1 (by decide)
      | bounty => exact Or.inl ⟨rfl, rfl⟩
      | contract => exact Or.inr ⟨rfl, rfl⟩
  · exact Or.inl rfl

/-- Spending concerns one script.  If it is redeemed thereby, it leaves both
schedules. -/
theorem spend_cases
    (books : Books α)
    (draw : α)
    (outpoint : Outpoint)
    (spender : Digest) :
    books.spend draw outpoint spender = (none, books) ∨
      ∃ id, (∀ other, other ≠ id →
          (books.ledger.redeem outpoint spender).2.get other = books.ledger.get other) ∧
        (((books.ledger.redeem outpoint spender).2.get id).status ≠ .redeemed ∧
            books.spend draw outpoint spender =
              (none, { books with ledger := (books.ledger.redeem outpoint spender).2 }) ∨
          books.spend draw outpoint spender =
            (some id,
              { books with
                ledger := (books.ledger.redeem outpoint spender).2
                contracts := (books.contracts.remove id).2
                bounties := (books.bounties.remove id draw).2 })) := by
  have redeemed := books.ledger.redeem_cases outpoint spender
  unfold spend
  cases answer : books.ledger.redeem outpoint spender with
  | mk found ledger =>
      rw [answer] at redeemed
      rcases redeemed with unknown | ⟨id, status, answered, shown, others⟩
      · obtain ⟨rfl, rfl⟩ := Prod.mk.inj unknown
        exact Or.inl rfl
      · obtain rfl : found = some (id, status) := answered
        refine Or.inr ⟨id, others, ?_⟩
        rw [shown]
        cases status with
        | redeemed => exact Or.inr rfl
        | unknown => exact Or.inl ⟨by simp, rfl⟩
        | unspent => exact Or.inl ⟨by simp, rfl⟩
        | unredeemed => exact Or.inl ⟨by simp, rfl⟩
        | partiallyRedeemed => exact Or.inl ⟨by simp, rfl⟩

end Cases

section Frame

theorem ledger_rankBounty
    (books : Books α)
    (output : Output)
    (draw : α) :
    (books.rankBounty output draw).ledger = books.ledger := by
  rcases books.rankBounty_cases output draw with ⟨_, noted⟩ | ⟨_, entered⟩
  · rw [noted]
  · rw [entered]

theorem contracts_rankBounty
    (books : Books α)
    (output : Output)
    (draw : α) :
    (books.rankBounty output draw).contracts = books.contracts := by
  rcases books.rankBounty_cases output draw with ⟨_, noted⟩ | ⟨_, entered⟩
  · rw [noted]
  · rw [entered]

theorem sales_rankBounty
    (books : Books α)
    (output : Output)
    (draw : α) :
    (books.rankBounty output draw).sales = books.sales := by
  rcases books.rankBounty_cases output draw with ⟨_, noted⟩ | ⟨_, entered⟩
  · rw [noted]
  · rw [entered]

/-- Ranking takes at most one address. -/
theorem addresses_rankBounty
    (books : Books α)
    (output : Output)
    (draw : α) :
    (books.rankBounty output draw).addresses = books.addresses ∨
      (books.rankBounty output draw).addresses = books.addresses.issue.2 := by
  rcases books.rankBounty_cases output draw with ⟨_, noted⟩ | ⟨_, entered⟩
  · rw [noted]
    exact Or.inl rfl
  · rw [entered]
    exact Or.inr rfl

theorem ledger_acceptContract
    (books : Books α)
    (output : Output) :
    (books.acceptContract output).ledger = books.ledger := by
  rcases books.acceptContract_cases output with
    ⟨_, ignored⟩ | ⟨_, _, _, queued⟩ | ⟨_, _, _, noted⟩
  · rw [ignored]
  · rw [queued]
  · rw [noted]

theorem bounties_acceptContract
    (books : Books α)
    (output : Output) :
    (books.acceptContract output).bounties = books.bounties := by
  rcases books.acceptContract_cases output with
    ⟨_, ignored⟩ | ⟨_, _, _, queued⟩ | ⟨_, _, _, noted⟩
  · rw [ignored]
  · rw [queued]
  · rw [noted]

theorem addresses_acceptContract
    (books : Books α)
    (output : Output) :
    (books.acceptContract output).addresses = books.addresses := by
  rcases books.acceptContract_cases output with
    ⟨_, ignored⟩ | ⟨_, _, _, queued⟩ | ⟨_, _, _, noted⟩
  · rw [ignored]
  · rw [queued]
  · rw [noted]

end Frame

section Memory

/-- The ledger does not forget an output. -/
theorem isSome_owner_pay
    {held : Outpoint}
    (known : (books.ledger.owners.get? held).isSome = true)
    (now : Instant)
    (draw : α)
    (script : LockingScript)
    (value : UInt64)
    (outpoint : Outpoint) :
    ((books.pay now draw script value outpoint).2.ledger.owners.get? held).isSome = true := by
  have recorded :
      ((books.recorded now script value outpoint).ledger.owners.get? held).isSome = true := by
    unfold Books.recorded
    rcases (books.ledger.put now script).2.register_cases now script.id value outpoint with
      refused | ⟨_, _, owners, _⟩
    · rw [refused, Ledger.owners_put]
      exact known
    · rw [owners, Ledger.owners_put, Keyed.get?_put]
      split
      · rfl
      · exact known
  rcases books.pay_cases now draw script value outpoint with
    refused | known' | ⟨_, _, ⟨_, ranked⟩ | ⟨_, accepted⟩⟩
  · rw [refused]
    exact known
  · rw [known', Ledger.owners_put]
    exact known
  · rw [ranked, ledger_rankBounty]
    exact recorded
  · rw [accepted, ledger_acceptContract]
    exact recorded

theorem owners_spend
    (books : Books α)
    (draw : α)
    (outpoint : Outpoint)
    (spender : Digest) :
    (books.spend draw outpoint spender).2.ledger.owners = books.ledger.owners := by
  rcases books.spend_cases draw outpoint spender with
    unknown | ⟨_, _, ⟨_, spent⟩ | redeemed⟩
  · rw [unknown]
  · rw [spent, Ledger.owners_redeem]
  · rw [redeemed, Ledger.owners_redeem]

end Memory

section Addresses

/-- An output takes at most one address. -/
theorem addresses_pay
    (books : Books α)
    (now : Instant)
    (draw : α)
    (script : LockingScript)
    (value : UInt64)
    (outpoint : Outpoint) :
    (books.pay now draw script value outpoint).2.addresses = books.addresses ∨
      (books.pay now draw script value outpoint).2.addresses = books.addresses.issue.2 := by
  rcases books.pay_cases now draw script value outpoint with
    refused | known | ⟨_, _, ⟨_, ranked⟩ | ⟨_, accepted⟩⟩
  · rw [refused]
    exact Or.inl rfl
  · rw [known]
    exact Or.inl rfl
  · rw [ranked]
    exact addresses_rankBounty _ _ draw
  · rw [accepted, addresses_acceptContract]
    exact Or.inl rfl

theorem addresses_spend
    (books : Books α)
    (draw : α)
    (outpoint : Outpoint)
    (spender : Digest) :
    (books.spend draw outpoint spender).2.addresses = books.addresses := by
  rcases books.spend_cases draw outpoint spender with
    unknown | ⟨_, _, ⟨_, spent⟩ | redeemed⟩
  · rw [unknown]
  · rw [spent]
  · rw [redeemed]

end Addresses

section Sales

theorem continue_acceptContract
    (books : Books α)
    (output : Output) :
    books.sales.Continue (books.acceptContract output).sales := by
  rcases books.acceptContract_cases output with
    ⟨_, ignored⟩ | ⟨_, _, _, queued⟩ | ⟨_, _, _, noted⟩
  · rw [ignored]
    exact books.sales.continue_refl
  · rw [queued]
    exact books.sales.continue_update output.id .accepted
  · rw [noted]
    exact books.sales.continue_refl

/-- An output on the chain may change the status of a sale, but not its key. -/
theorem continue_pay
    (books : Books α)
    (now : Instant)
    (draw : α)
    (script : LockingScript)
    (value : UInt64)
    (outpoint : Outpoint) :
    books.sales.Continue (books.pay now draw script value outpoint).2.sales := by
  rcases books.pay_cases now draw script value outpoint with
    refused | known | ⟨_, _, ⟨_, ranked⟩ | ⟨_, accepted⟩⟩
  · rw [refused]
    exact books.sales.continue_refl
  · rw [known]
    exact books.sales.continue_refl
  · rw [ranked, sales_rankBounty]
    exact books.sales.continue_refl
  · rw [accepted]
    exact continue_acceptContract _ _

theorem sales_spend
    (books : Books α)
    (draw : α)
    (outpoint : Outpoint)
    (spender : Digest) :
    (books.spend draw outpoint spender).2.sales = books.sales := by
  rcases books.spend_cases draw outpoint spender with unknown | ⟨_, _, ⟨_, kept⟩ | redeemed⟩
  · rw [unknown]
  · rw [kept]
  · rw [redeemed]

end Sales

end Books
end WorkMarket
