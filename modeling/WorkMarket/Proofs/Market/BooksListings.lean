import WorkMarket.Proofs.Market.BooksConsistency

/-!
# What the books list for a script

Where names do not collide, a script is listed by its kind and name, and an
event on the chain concerns the listing of one script only.  An output that is
accepted is noted last with its script, or lists the script anew; nothing else
adds an output.  While a contract is queued its sale is accepted and has the
key of the listing, as long as nobody offers the contract again.
-/

namespace WorkMarket

namespace Listing

/-- A listing with further outputs at its end. -/
def extend
    (listing : Listing)
    (outpoints : List Outpoint) :
    Listing :=
  { listing with outpoints := listing.outpoints ++ outpoints }

@[simp] theorem extend_nil
    (listing : Listing) :
    listing.extend [] = listing := by
  simp [extend]

theorem note_eq_extend
    (listing : Listing)
    (noted : Outpoint)
    (unlisted : noted ∉ listing.outpoints) :
    listing.note noted = listing.extend [noted] := by
  unfold note extend
  rw [if_neg (by simpa using unlisted)]

end Listing

namespace Books

variable {α : Type}

section Definitions

variable {books : Books α}

/-- What is listed for a script. -/
def listing?
    (books : Books α)
    (script : LockingScript) :
    Option Listing :=
  match script.kind with
  | .invalid => none
  | .bounty => books.bounties.listing? script.id
  | .contract => books.contracts.listing? script.id

theorem listing?_of_bounty
    (books : Books α)
    {script : LockingScript}
    (bounty : script.kind = .bounty) :
    books.listing? script = books.bounties.listing? script.id := by
  unfold listing?
  rw [bounty]

theorem listing?_of_contract
    (books : Books α)
    {script : LockingScript}
    (contract : script.kind = .contract) :
    books.listing? script = books.contracts.listing? script.id := by
  unfold listing?
  rw [contract]

/-- What is listed for a script is listed by the schedule of its kind. -/
theorem listing?_cases
    {script : LockingScript}
    {listing : Listing}
    (listed : books.listing? script = some listing) :
    script.kind = .contract ∧ books.contracts.listing? script.id = some listing ∨
      script.kind = .bounty ∧ books.bounties.listing? script.id = some listing := by
  unfold listing? at listed
  cases kind : script.kind with
  | invalid =>
      rw [kind] at listed
      contradiction
  | bounty =>
      rw [kind] at listed
      exact Or.inr ⟨rfl, listed⟩
  | contract =>
      rw [kind] at listed
      exact Or.inl ⟨rfl, listed⟩

/-- The outputs that are listed are held. -/
theorem holds_of_listing?
    {script : LockingScript}
    {listing : Listing}
    (listed : books.listing? script = some listing)
    {held : Outpoint}
    (present : held ∈ listing.outpoints) :
    books.Holds script.id held := by
  rcases listing?_cases listed with ⟨_, listed⟩ | ⟨_, listed⟩
  · obtain ⟨contract, queued, named, rfl⟩ := ContractSchedule.exists_of_listing? listed
    exact Or.inl ⟨contract, queued, named, present⟩
  · exact Or.inr ⟨listing, listed, present⟩

/-- A listing may have grown: it holds further outputs, or it is new and holds
just these. -/
def Grew
    (books next : Books α)
    (script : LockingScript)
    (outpoints : List Outpoint) : Prop :=
  ∀ listing, next.listing? script = some listing →
    (∃ earlier, books.listing? script = some earlier ∧ listing = earlier.extend outpoints) ∨
      books.listing? script = none ∧ listing.outpoints = outpoints

/-- Books that list nothing new. -/
theorem grew_nil_of_subset
    {next : Books α}
    {script : LockingScript}
    (kept : ∀ listing, next.listing? script = some listing →
      books.listing? script = some listing) :
    books.Grew next script [] := by
  intro listing listed
  exact Or.inl ⟨listing, kept listing listed, by simp⟩

end Definitions

/-- Listed scripts were paid, no contract is queued twice, and the sale of a
queued contract is accepted and has its key. -/
structure IsExact
    (pays : LockingScript → Outpoint → Prop)
    (books : Books α) : Prop where
  distinct : books.contracts.IsDistinct
  contracts_paid : ∀ id listing, books.contracts.listing? id = some listing →
    ∃ outpoint, pays listing.script outpoint
  bounties_paid : ∀ id listing, books.bounties.listing? id = some listing →
    ∃ outpoint, pays listing.script outpoint
  accepted : ∀ id listing, books.contracts.listing? id = some listing →
    ∃ sale, Keyed.get? books.sales id = some sale ∧ sale.status = .accepted ∧
      listing.secret = some sale.secret

/-- What is listed for a script is a script that was paid. -/
theorem IsExact.paid_of_listing?
    {books : Books α}
    {pays : LockingScript → Outpoint → Prop}
    (exact : books.IsExact pays)
    {script : LockingScript}
    {listing : Listing}
    (listed : books.listing? script = some listing) :
    ∃ outpoint, pays listing.script outpoint := by
  rcases listing?_cases listed with ⟨_, listed⟩ | ⟨_, listed⟩
  · exact exact.contracts_paid _ _ listed
  · exact exact.bounties_paid _ _ listed

/-- The sale of a listed contract is accepted and has its key. -/
theorem IsExact.sale_of_listing?
    {books : Books α}
    {pays : LockingScript → Outpoint → Prop}
    (exact : books.IsExact pays)
    {script : LockingScript}
    {listing : Listing}
    (contract : script.kind = .contract)
    (listed : books.listing? script = some listing) :
    ∃ sale, Keyed.get? books.sales script.id = some sale ∧ sale.status = .accepted ∧
      listing.secret = some sale.secret := by
  rw [listing?_of_contract _ contract] at listed
  exact exact.accepted script.id listing listed

/-- A contract whose sale is not accepted is not listed. -/
theorem IsExact.unlisted_of_unaccepted
    {books : Books α}
    {pays : LockingScript → Outpoint → Prop}
    (exact : books.IsExact pays)
    {id : Digest}
    (unaccepted : ∀ sale, Keyed.get? books.sales id = some sale → sale.status ≠ .accepted) :
    books.contracts.listing? id = none := by
  cases listed : books.contracts.listing? id with
  | none => rfl
  | some listing =>
      obtain ⟨sale, found, accepted, _⟩ := exact.accepted id listing listed
      exact absurd accepted (unaccepted sale found)

/-- Nor is one whose sale is only offered. -/
theorem IsExact.unlisted_of_offered
    {books : Books α}
    {pays : LockingScript → Outpoint → Prop}
    (exact : books.IsExact pays)
    {id : Digest}
    {sale : Sale}
    (found : Keyed.get? books.sales id = some sale)
    (offered : sale.status = .offered) :
    books.contracts.listing? id = none := by
  apply exact.unlisted_of_unaccepted
  intro other again
  rw [found] at again
  rw [← Option.some.inj again, offered]
  simp

variable [Scalar α] {books : Books α} {pays : LockingScript → Outpoint → Prop}

theorem isExact_empty
    (pays : LockingScript → Outpoint → Prop)
    (addresses : AddressBook)
    (costs : CostModel α) :
    (empty addresses costs).IsExact pays where
  distinct := List.nodup_nil
  contracts_paid := by
    simp [empty, ContractSchedule.empty, ContractQueue.empty, ContractSchedule.listing?,
      ContractQueue.get?]
  bounties_paid := by
    simp [empty, BountySchedule.empty, BountySchedule.listing?, Ranking.empty, Ranking.get?]
  accepted := by
    simp [empty, ContractSchedule.empty, ContractQueue.empty, ContractSchedule.listing?,
      ContractQueue.get?]

section Listings

/-- What is listed for a script is sound and of its kind. -/
theorem IsSound.of_listing?
    (sound : books.IsSound pays)
    {script : LockingScript}
    {listing : Listing}
    (listed : books.listing? script = some listing) :
    listing.IsSound script.id ∧ listing.script.kind = script.kind := by
  rcases listing?_cases listed with ⟨kind, listed⟩ | ⟨kind, listed⟩
  · obtain ⟨contract, queued, named, rfl⟩ := ContractSchedule.exists_of_listing? listed
    rw [kind, ← named]
    exact ⟨sound.contracts.sound contract queued, sound.contracts.bound contract queued⟩
  · rw [kind]
    exact ⟨sound.bounties.sound _ _ listed, sound.bounties.bounty _ _ listed⟩

/-- What a schedule lists under a name is listed for its script. -/
theorem IsSound.listing?_of_schedules
    (sound : books.IsSound pays)
    {id : Digest}
    {listing : Listing}
    (listed : books.contracts.listing? id = some listing ∨
      books.bounties.listing? id = some listing) :
    books.listing? listing.script = some listing ∧ listing.script.id = id := by
  rcases listed with listed | listed
  · obtain ⟨contract, queued, named, rfl⟩ := ContractSchedule.exists_of_listing? listed
    have kind : contract.listing.script.kind = .contract := sound.contracts.bound contract queued
    have same : contract.listing.script.id = id :=
      (sound.contracts.sound contract queued).id_eq.trans named
    refine ⟨?_, same⟩
    rw [listing?_of_contract _ kind, same]
    exact listed
  · have same := (sound.bounties.sound id listing listed).id_eq
    refine ⟨?_, same⟩
    rw [listing?_of_bounty _ (sound.bounties.bounty id listing listed), same]
    exact listed

/-- A job that is offered is that of a listing. -/
theorem IsSound.listing?_of_offers
    (sound : books.IsSound pays)
    {id : Digest}
    {job : Job}
    (offered : books.Offers id job) :
    ∃ listing, books.listing? listing.script = some listing ∧ listing.script.id = id ∧
      job = listing.job := by
  rcases offered with ⟨contract, front, rfl, rfl⟩ | ⟨listing, listed, rfl⟩
  · obtain ⟨listed, named⟩ :=
      sound.listing?_of_schedules (Or.inl (ContractSchedule.listing?_of_front? front))
    exact ⟨contract.listing, listed, named, rfl⟩
  · obtain ⟨listedFor, named⟩ := sound.listing?_of_schedules (Or.inr listed)
    exact ⟨listing, listedFor, named, rfl⟩

/-- Where no contract is queued twice, whatever is held is listed. -/
theorem IsSound.listing?_of_holds
    (sound : books.IsSound pays)
    (exact : books.IsExact pays)
    {id : Digest}
    {outpoint : Outpoint}
    (held : books.Holds id outpoint) :
    ∃ listing, books.listing? listing.script = some listing ∧ listing.script.id = id ∧
      outpoint ∈ listing.outpoints := by
  rcases held with ⟨contract, present, rfl, inContract⟩ | ⟨listing, listed, inListing⟩
  · obtain ⟨listed, named⟩ :=
      sound.listing?_of_schedules (Or.inl (exact.distinct.listing?_of_mem present))
    exact ⟨contract.listing, listed, named, inContract⟩
  · obtain ⟨listedFor, named⟩ := sound.listing?_of_schedules (Or.inr listed)
    exact ⟨listing, listedFor, named, inListing⟩

end Listings

section Ranking

variable {output : Output} {draw : α}

/-- Ranking notes the output with its bounty, or lists the bounty anew. -/
theorem IsSound.of_listing?_rankBounty
    (sound : books.IsSound pays)
    (named : output.script.id = output.id)
    (regular : output.script.IsRegular)
    (distinct : (books.rankBounty output draw).addresses.NeverRepeats)
    {id : Digest}
    {listing : Listing}
    (listed : (books.rankBounty output draw).bounties.listing? id = some listing) :
    (∃ earlier, books.bounties.listing? id = some earlier ∧
        listing = if id = output.id then earlier.note output.outpoint else earlier) ∨
      id = output.id ∧ books.bounties.listing? id = none ∧
        listing.script = output.script ∧ listing.outpoints = [output.outpoint] := by
  rcases books.rankBounty_cases output draw with ⟨_, noted⟩ | ⟨unranked, entered⟩
  · rw [noted] at listed
    exact Or.inl (BountySchedule.exists_of_listing?_addOutput listed)
  · rw [entered] at distinct listed
    have unlisted : books.bounties.listing? output.id = none := by
      rw [← Option.not_isSome_iff_eq_none, ← sound.bounties.contains_eq, unranked]
      simp
    have unused := sound.isServing.unused distinct
    rcases (sound.bounties.insert_cases unranked named regular unused draw).2 with
      same | listings
    · rw [same] at listed
      have other : id ≠ output.id := Ne.symm (sound.bounties.ne_of_unranked unranked listed)
      exact Or.inl ⟨listing, listed, by rw [if_neg other]⟩
    · rw [listings] at listed
      split at listed
      · rename_i same
        subst same
        obtain rfl := Option.some.inj listed
        exact Or.inr ⟨rfl, unlisted, rfl, rfl⟩
      · rename_i other
        exact Or.inl ⟨listing, listed, by rw [if_neg (Ne.symm other)]⟩

theorem IsExact.rankBounty
    (exact : books.IsExact pays)
    (sound : books.IsSound pays)
    (named : output.script.id = output.id)
    (regular : output.script.IsRegular)
    (paid : pays output.script output.outpoint)
    (distinct : (books.rankBounty output draw).addresses.NeverRepeats) :
    (books.rankBounty output draw).IsExact pays where
  distinct := by
    rw [contracts_rankBounty]
    exact exact.distinct
  contracts_paid := by
    rw [contracts_rankBounty]
    exact exact.contracts_paid
  bounties_paid := by
    intro id listing listed
    rcases sound.of_listing?_rankBounty named regular distinct listed with
      ⟨earlier, before, rfl⟩ | ⟨_, _, script, _⟩
    · obtain ⟨outpoint, earlierPaid⟩ := exact.bounties_paid id earlier before
      refine ⟨outpoint, ?_⟩
      split
      · rw [Listing.script_note]
        exact earlierPaid
      · exact earlierPaid
    · rw [script]
      exact ⟨output.outpoint, paid⟩
  accepted := by
    rw [contracts_rankBounty, sales_rankBounty]
    exact exact.accepted

/-- Ranking grows the listing of its bounty, and no other. -/
theorem IsSound.grew_rankBounty
    (sound : books.IsSound pays)
    (named : output.script.id = output.id)
    (regular : output.script.IsRegular)
    (bounty : output.script.kind = .bounty)
    (unowned : ∀ id, ¬books.Holds id output.outpoint)
    (distinct : (books.rankBounty output draw).addresses.NeverRepeats)
    (script : LockingScript)
    (names : script.kind = .bounty → script.id = output.script.id → output.script = script) :
    books.Grew (books.rankBounty output draw) script
      (if output.script = script then [output.outpoint] else []) := by
  intro listing listed
  cases kind : script.kind with
  | invalid =>
      rw [listing?, kind] at listed
      contradiction
  | contract =>
      have different : output.script ≠ script := by
        rintro rfl
        rw [bounty] at kind
        contradiction
      rw [listing?_of_contract _ kind, contracts_rankBounty] at listed
      rw [if_neg different, listing?_of_contract _ kind]
      exact Or.inl ⟨listing, listed, by simp⟩
  | bounty =>
      rw [listing?_of_bounty _ kind] at listed ⊢
      rcases sound.of_listing?_rankBounty named regular distinct listed with
        ⟨earlier, before, isNoted⟩ | ⟨same, unlisted, _, outpoints⟩
      · by_cases same : script.id = output.id
        · rw [if_pos same] at isNoted
          rw [if_pos (names kind (same.trans named.symm))]
          refine Or.inl ⟨earlier, before, isNoted.trans (earlier.note_eq_extend _ ?_)⟩
          exact fun present => unowned script.id (Or.inr ⟨earlier, before, present⟩)
        · rw [if_neg same] at isNoted
          have different : output.script ≠ script := by
            rintro rfl
            exact same named
          rw [if_neg different]
          exact Or.inl ⟨earlier, before, by rw [isNoted, Listing.extend_nil]⟩
      · rw [if_pos (names kind (same.trans named.symm))]
        exact Or.inr ⟨unlisted, outpoints⟩

end Ranking

section Accepting

variable {output : Output}

/-- Accepting notes the output with its contract, or lists the contract anew. -/
theorem IsExact.of_listing?_acceptContract
    (exact : books.IsExact pays)
    {id : Digest}
    {listing : Listing}
    (listed : (books.acceptContract output).contracts.listing? id = some listing) :
    (∃ earlier, books.contracts.listing? id = some earlier ∧
        listing = if id = output.id then earlier.note output.outpoint else earlier) ∨
      id = output.id ∧ books.contracts.listing? id = none ∧
        listing.script = output.script ∧ listing.outpoints = [output.outpoint] ∧
        ∃ sale, Keyed.get? books.sales output.id = some sale ∧
          listing.secret = some sale.secret := by
  -- What is not listed has no listing that could note anything.
  have other (unlisted : books.contracts.listing? output.id = none)
      {found : Listing} (before : books.contracts.listing? id = some found) :
      id ≠ output.id := by
    rintro rfl
    rw [unlisted] at before
    contradiction
  rcases books.acceptContract_cases output with
    ⟨unaccepted, ignored⟩ | ⟨sale, found, offered, queued⟩ | ⟨sale, found, accepted, noted⟩
  · have unlisted := exact.unlisted_of_unaccepted unaccepted
    rw [ignored] at listed
    exact Or.inl ⟨listing, listed, by rw [if_neg (other unlisted listed)]⟩
  · have unlisted := exact.unlisted_of_offered found offered
    rw [queued] at listed
    rcases books.contracts.listing?_insert (ContractJob.ofOutput output sale.secret) with
      same | listings
    · rw [same] at listed
      exact Or.inl ⟨listing, listed, by rw [if_neg (other unlisted listed)]⟩
    · rw [listings] at listed
      cases before : books.contracts.listing? id with
      | some earlier =>
          rw [before, Option.some_or] at listed
          obtain rfl := Option.some.inj listed
          exact Or.inl ⟨earlier, rfl, by rw [if_neg (other unlisted before)]⟩
      | none =>
          rw [before, Option.none_or, Option.ite_none_right_eq_some] at listed
          obtain ⟨rfl, isNew⟩ := listed
          obtain rfl := Option.some.inj isNew
          exact Or.inr ⟨rfl, rfl, rfl, rfl, sale, found, rfl⟩
  · rw [noted] at listed
    change (books.contracts.addOutput output).2.listing? id = some listing at listed
    rw [ContractSchedule.listing?_addOutput, Option.map_eq_some_iff] at listed
    obtain ⟨earlier, before, rfl⟩ := listed
    exact Or.inl ⟨earlier, before, rfl⟩

/-- Accepting leaves every listed contract with an accepted sale, whose key it
has. -/
theorem IsExact.accepted_acceptContract
    (exact : books.IsExact pays)
    {id : Digest}
    {listing : Listing}
    (listed : (books.acceptContract output).contracts.listing? id = some listing) :
    ∃ sale, Keyed.get? (books.acceptContract output).sales id = some sale ∧
      sale.status = .accepted ∧ listing.secret = some sale.secret := by
  have origin := exact.of_listing?_acceptContract listed
  rcases books.acceptContract_cases output with
    ⟨_, ignored⟩ | ⟨sale, found, offered, queued⟩ | ⟨_, _, _, noted⟩
  · rw [ignored] at listed ⊢
    exact exact.accepted id listing listed
  · have sales := SalesBook.get?_update found .accepted id
    rw [queued]
    rcases origin with
      ⟨earlier, before, isListing⟩ | ⟨rfl, _, _, _, otherSale, otherFound, secret⟩
    · have other : id ≠ output.id := by
        rintro rfl
        rw [exact.unlisted_of_offered found offered] at before
        contradiction
      rw [if_neg (Ne.symm other)] at sales
      rw [if_neg other] at isListing
      rw [isListing, sales]
      exact exact.accepted id earlier before
    · rw [found] at otherFound
      obtain rfl := Option.some.inj otherFound
      rw [if_pos rfl] at sales
      exact ⟨_, sales, rfl, secret⟩
  · rw [noted] at listed ⊢
    change (books.contracts.addOutput output).2.listing? id = some listing at listed
    rw [ContractSchedule.listing?_addOutput, Option.map_eq_some_iff] at listed
    obtain ⟨earlier, before, rfl⟩ := listed
    obtain ⟨sale, found, accepted, secret⟩ := exact.accepted id earlier before
    refine ⟨sale, found, accepted, ?_⟩
    split
    · rw [Listing.secret_note]
      exact secret
    · exact secret

theorem IsExact.acceptContract
    (exact : books.IsExact pays)
    (paid : pays output.script output.outpoint) :
    (books.acceptContract output).IsExact pays where
  distinct := by
    rcases books.acceptContract_cases output with
      ⟨_, ignored⟩ | ⟨sale, found, offered, queued⟩ | ⟨_, _, _, noted⟩
    · rw [ignored]
      exact exact.distinct
    · rw [queued]
      exact exact.distinct.insert _ (exact.unlisted_of_offered found offered)
    · rw [noted]
      exact exact.distinct.addOutput output
  contracts_paid := by
    intro id listing listed
    rcases exact.of_listing?_acceptContract listed with
      ⟨earlier, before, rfl⟩ | ⟨_, _, script, _⟩
    · obtain ⟨outpoint, earlierPaid⟩ := exact.contracts_paid id earlier before
      refine ⟨outpoint, ?_⟩
      split
      · rw [Listing.script_note]
        exact earlierPaid
      · exact earlierPaid
    · rw [script]
      exact ⟨output.outpoint, paid⟩
  bounties_paid := by
    rw [bounties_acceptContract]
    exact exact.bounties_paid
  accepted := fun _ _ => exact.accepted_acceptContract

/-- Accepting grows the listing of its contract, and no other. -/
theorem IsExact.grew_acceptContract
    (exact : books.IsExact pays)
    (output : Output)
    (named : output.script.id = output.id)
    (contract : output.script.kind = .contract)
    (unowned : ∀ id, ¬books.Holds id output.outpoint)
    (script : LockingScript)
    (names : script.kind = .contract → script.id = output.script.id → output.script = script) :
    books.Grew (books.acceptContract output) script
      (if output.script = script then [output.outpoint] else []) := by
  intro listing listed
  cases kind : script.kind with
  | invalid =>
      rw [listing?, kind] at listed
      contradiction
  | bounty =>
      have different : output.script ≠ script := by
        rintro rfl
        rw [contract] at kind
        contradiction
      rw [listing?_of_bounty _ kind, bounties_acceptContract] at listed
      rw [if_neg different, listing?_of_bounty _ kind]
      exact Or.inl ⟨listing, listed, by simp⟩
  | contract =>
      have held {earlier : Listing} (before : books.listing? script = some earlier)
          (present : output.outpoint ∈ earlier.outpoints) : False :=
        unowned script.id (holds_of_listing? before present)
      rw [listing?_of_contract _ kind] at listed held ⊢
      rcases exact.of_listing?_acceptContract listed with
        ⟨earlier, before, isNoted⟩ | ⟨same, unlisted, _, outpoints, _⟩
      · by_cases same : script.id = output.id
        · rw [if_pos same] at isNoted
          rw [if_pos (names kind (same.trans named.symm))]
          exact Or.inl ⟨earlier, before, isNoted.trans
            (earlier.note_eq_extend _ fun present => held before present)⟩
        · rw [if_neg same] at isNoted
          have different : output.script ≠ script := by
            rintro rfl
            exact same named
          rw [if_neg different]
          exact Or.inl ⟨earlier, before, by rw [isNoted, Listing.extend_nil]⟩
      · rw [if_pos (names kind (same.trans named.symm))]
        exact Or.inr ⟨unlisted, outpoints⟩

end Accepting

section Chain

variable {script paidScript : LockingScript} {outpoint : Outpoint}

/-- Whatever output appears, the books stay exact. -/
theorem IsExact.pay
    (exact : books.IsExact pays)
    (sound : books.IsSound pays)
    (chain : IsChain pays)
    (paid : pays script outpoint)
    (now : Instant)
    (draw : α)
    (value : UInt64)
    (distinct : (books.pay now draw script value outpoint).2.addresses.NeverRepeats) :
    (books.pay now draw script value outpoint).2.IsExact pays := by
  have regular := (chain.built script outpoint paid).isRegular
  have recordedExact : (books.recorded now script value outpoint).IsExact pays :=
    ⟨exact.distinct, exact.contracts_paid, exact.bounties_paid, exact.accepted⟩
  rcases books.pay_cases now draw script value outpoint with
    refused | known | ⟨_, new, ⟨_, ranked⟩ | ⟨_, accepted⟩⟩
  · rw [refused]
    exact exact
  · rw [known]
    exact ⟨exact.distinct, exact.contracts_paid, exact.bounties_paid, exact.accepted⟩
  · rw [ranked] at distinct ⊢
    exact recordedExact.rankBounty (sound.recorded chain paid new).1 rfl regular paid distinct
  · rw [accepted]
    exact recordedExact.acceptContract paid

/-- Whatever output is spent, the books stay exact. -/
theorem IsExact.spend
    (exact : books.IsExact pays)
    (sound : books.IsSound pays)
    (draw : α)
    (spent : Outpoint)
    (spender : Digest) :
    (books.spend draw spent spender).2.IsExact pays := by
  rcases books.spend_cases draw spent spender with unknown | ⟨id, _, ⟨_, kept⟩ | redeemed⟩
  · rw [unknown]
    exact exact
  · rw [kept]
    exact ⟨exact.distinct, exact.contracts_paid, exact.bounties_paid, exact.accepted⟩
  · rw [redeemed]
    have contracts {other : Digest} {listing : Listing}
        (listed : (books.contracts.remove id).2.listing? other = some listing) :
        books.contracts.listing? other = some listing := by
      rw [ContractSchedule.listing?_remove, Option.ite_none_left_eq_some] at listed
      exact listed.2
    refine ⟨exact.distinct.remove id, ?_, ?_, ?_⟩
    · exact fun other listing listed => exact.contracts_paid other listing (contracts listed)
    · intro other listing listed
      rw [BountySchedule.listing?_remove] at listed
      exact exact.bounties_paid other listing (sound.bounties.of_listing?_without listed).2
    · exact fun other listing listed => exact.accepted other listing (contracts listed)

/-- Spending lists nothing new. -/
theorem IsSound.of_listing?_spend
    (sound : books.IsSound pays)
    {draw : α}
    {spent : Outpoint}
    {spender : Digest}
    {listing : Listing}
    (listed : (books.spend draw spent spender).2.listing? script = some listing) :
    books.listing? script = some listing := by
  rcases books.spend_cases draw spent spender with unknown | ⟨id, _, ⟨_, kept⟩ | redeemed⟩
  · rw [unknown] at listed
    exact listed
  · rw [kept] at listed
    exact listed
  · rw [redeemed] at listed
    cases kind : script.kind with
    | invalid =>
        rw [listing?, kind] at listed
        contradiction
    | bounty =>
        rw [listing?_of_bounty _ kind] at listed ⊢
        dsimp only at listed
        rw [BountySchedule.listing?_remove] at listed
        exact (sound.bounties.of_listing?_without listed).2
    | contract =>
        rw [listing?_of_contract _ kind] at listed ⊢
        dsimp only at listed
        rw [ContractSchedule.listing?_remove, Option.ite_none_left_eq_some] at listed
        exact listed.2

/-- An accepted output is listed with its script, and with no other. -/
theorem IsSound.grew_pay
    (sound : books.IsSound pays)
    (exact : books.IsExact pays)
    (chain : IsChain pays)
    (names : NamesDiffer pays)
    (paid : pays paidScript outpoint)
    (now : Instant)
    (draw : α)
    (value : UInt64)
    (distinct : (books.pay now draw paidScript value outpoint).2.addresses.NeverRepeats)
    {otherOutpoint : Outpoint}
    (scriptPaid : pays script otherOutpoint)
    (valid : script.isValid = true) :
    books.Grew (books.pay now draw paidScript value outpoint).2 script
      (if paidScript = script ∧ (books.pay now draw paidScript value outpoint).1 ≠ .invalid then
        [outpoint]
      else []) := by
  have regular := (chain.built paidScript outpoint paid).isRegular
  have recordedExact : (books.recorded now paidScript value outpoint).IsExact pays :=
    ⟨exact.distinct, exact.contracts_paid, exact.bounties_paid, exact.accepted⟩
  have sameScript (paidValid : paidScript.isValid = true) (equal : script.id = paidScript.id) :
      paidScript = script :=
    names paidScript script outpoint otherOutpoint paid scriptPaid paidValid valid equal.symm
  have unheld (unowned : books.ledger.owners.get? outpoint = none) (id : Digest) :
      ¬books.Holds id outpoint := by
    intro held
    rw [sound.registered id outpoint held] at unowned
    contradiction
  rcases books.pay_cases now draw paidScript value outpoint with
    refused | known | ⟨paidValid, new, ⟨bounty, ranked⟩ | ⟨contract, accepted⟩⟩
  · rw [refused, if_neg (by simp)]
    exact grew_nil_of_subset fun _ listed => listed
  · rw [known, if_neg (by simp)]
    exact grew_nil_of_subset fun _ listed => listed
  · obtain ⟨recordedSound, unowned, _, _⟩ := sound.recorded chain paid new
    rw [ranked] at distinct ⊢
    simp only [ne_eq, reduceCtorEq, not_false_eq_true, and_true]
    refine recordedSound.grew_rankBounty rfl regular bounty ?_ distinct script ?_
    · exact unheld unowned
    · exact fun _ equal => sameScript paidValid equal
  · obtain ⟨_, unowned, _, _⟩ := sound.recorded chain paid new
    rw [accepted]
    simp only [ne_eq, reduceCtorEq, not_false_eq_true, and_true]
    have grew := recordedExact.grew_acceptContract
      (Output.ofScript outpoint paidScript value) rfl contract
    refine grew ?_ script ?_
    · exact unheld unowned
    · exact fun _ equal => sameScript paidValid equal

end Chain

end Books
end WorkMarket
