import WorkMarket.Proofs.Market.BooksEvents
import WorkMarket.Proofs.Market.BountyJobs
import WorkMarket.Proofs.Market.ContractJobs
import WorkMarket.Proofs.Market.Promises

/-!
# The jobs that the books offer

Workers can be on the contract at the front and on every listed bounty.
Whatever the ledger makes of an output, an event leaves these jobs as they are,
but for the one that it redeems; and where names do not collide, a name offers
one job only.
-/

namespace WorkMarket
namespace Books

variable {α : Type}

section Invariant

variable {books : Books α}

/-- A job that workers can be on: the contract at the front, or any listed
bounty. -/
def Offers
    (books : Books α)
    (id : Digest)
    (job : Job) : Prop :=
  books.contracts.Offers id job ∨ books.bounties.Offers id job

/-- Both queues can serve workers, and every address in use was handed out. -/
structure IsServing (books : Books α) : Prop where
  contracts : books.contracts.IsSound
  bounties : books.bounties.IsSound
  issued : ∀ id listing, books.bounties.listing? id = some listing →
    books.addresses.HasIssued listing.address

/-- Every script in a queue was paid by some output. -/
structure ListsPaid
    (pays : LockingScript → Outpoint → Prop)
    (books : Books α) : Prop where
  contracts : ∀ contract ∈ books.contracts.queue.jobs, ∃ outpoint,
    pays contract.output.script outpoint
  bounties : ∀ id listing, books.bounties.listing? id = some listing → ∃ outpoint,
    pays listing.script outpoint

/-- Whatever the ledger says, the queues serve as before. -/
theorem IsServing.of_ledger
    (serving : books.IsServing)
    (ledger : Ledger α) :
    ({ books with ledger := ledger } : Books α).IsServing :=
  ⟨serving.contracts, serving.bounties, serving.issued⟩

/-- A contract that is offered is the one at the front. -/
theorem IsServing.contractOffered
    (serving : books.IsServing)
    {id : Digest}
    {job : Job}
    (offered : books.Offers id job)
    (contract : job.kind = .contract) :
    books.contracts.Offers id job := by
  rcases offered with offered | offered
  · exact offered
  · rw [serving.bounties.kind_of_offers offered] at contract
    contradiction

/-- A bounty that is offered is a listed one. -/
theorem IsServing.bountyOffered
    (serving : books.IsServing)
    {id : Digest}
    {job : Job}
    (offered : books.Offers id job)
    (bounty : job.kind = .bounty) :
    books.bounties.Offers id job := by
  rcases offered with offered | offered
  · rw [serving.contracts.kind_of_offers offered] at bounty
    contradiction
  · exact offered

/-- A selected job that can be worked on is offered under its name. -/
theorem IsServing.offers_of_selected
    (serving : books.IsServing)
    {job : Job}
    (selected : job = books.contracts.selected ∨ job = books.bounties.selected)
    (valid : job.isValid = true) :
    books.Offers job.id job := by
  rcases selected with rfl | rfl
  · exact Or.inl (serving.contracts.offers_selected valid)
  · rcases serving.bounties.selected with absent | ⟨id, listing, listed, isJob⟩
    · rw [absent] at valid
      contradiction
    · rw [isJob, (serving.bounties.sound id listing listed).id_job]
      exact Or.inr ⟨listing, listed, rfl⟩

/-- An address that was not handed out is not in use. -/
theorem IsServing.unused
    (serving : books.IsServing)
    (distinct : books.addresses.issue.2.NeverRepeats) :
    ∀ id listing, books.bounties.listing? id = some listing →
      listing.address ≠ books.addresses.issue.1 := by
  intro id listing listed used
  exact distinct.not_hasIssued (used ▸ serving.issued id listing listed)

end Invariant

section Uniqueness

variable {books next : Books α} {pays : LockingScript → Outpoint → Prop} {id : Digest}
  {job otherJob : Job}

/-- What is offered comes from a script that was paid. -/
theorem IsServing.exists_paid_of_offers
    (serving : books.IsServing)
    (paid : books.ListsPaid pays)
    (offered : books.Offers id job) :
    ∃ script outpoint, pays script outpoint ∧ script.isValid = true ∧ script.id = id ∧
      job.kind = script.kind ∧
      (books.contracts.Offers id job → job = Job.ofScript script script.minerAddress) := by
  rcases offered with ⟨contract, front, rfl, rfl⟩ | ⟨listing, listed, rfl⟩
  · have present := ContractSchedule.mem_of_front? front
    have sound := serving.contracts.sound contract present
    obtain ⟨outpoint, isPaid⟩ := paid.contracts contract present
    exact ⟨contract.output.script, outpoint, isPaid, sound.suited.1, sound.id_eq, sound.kind_job,
      fun _ => rfl⟩
  · have sound := serving.bounties.sound id listing listed
    obtain ⟨outpoint, isPaid⟩ := paid.bounties id listing listed
    refine ⟨listing.script, outpoint, isPaid, sound.suited.1, sound.id_eq, sound.kind_job, ?_⟩
    intro contract
    have bounty := serving.bounties.kind_of_offers ⟨listing, listed, rfl⟩
    rw [serving.contracts.kind_of_offers contract] at bounty
    contradiction

/-- Where names do not collide, a name tells the kind of what is offered, and of
a contract the job. -/
theorem IsServing.offers_agree
    (serving : books.IsServing)
    (paid : books.ListsPaid pays)
    (nextServing : next.IsServing)
    (nextPaid : next.ListsPaid pays)
    (names : NamesDiffer pays)
    (offered : books.Offers id job)
    (otherOffered : next.Offers id otherJob) :
    job.kind = otherJob.kind ∧ (job.kind = .contract → job = otherJob) := by
  obtain ⟨script, _, isPaid, valid, named, kind, isJob⟩ :=
    serving.exists_paid_of_offers paid offered
  obtain ⟨other, _, otherIsPaid, otherValid, otherNamed, otherKind, isOther⟩ :=
    nextServing.exists_paid_of_offers nextPaid otherOffered
  obtain rfl : script = other :=
    names _ _ _ _ isPaid otherIsPaid valid otherValid (named.trans otherNamed.symm)
  refine ⟨kind.trans otherKind.symm, fun contract => ?_⟩
  have otherContract := otherKind.trans (kind.symm.trans contract)
  exact (isJob (serving.contractOffered offered contract)).trans
    (isOther (nextServing.contractOffered otherOffered otherContract)).symm

/-- Where names do not collide, a name offers one job only. -/
theorem IsServing.offers_unique
    (serving : books.IsServing)
    (paid : books.ListsPaid pays)
    (names : NamesDiffer pays)
    (offered : books.Offers id job)
    (otherOffered : books.Offers id otherJob) :
    job = otherJob := by
  obtain ⟨sameKind, sameContract⟩ :=
    serving.offers_agree paid serving paid names offered otherOffered
  rcases offered with contract | bounty
  · exact sameContract (serving.contracts.kind_of_offers contract)
  · have kind := serving.bounties.kind_of_offers bounty
    obtain ⟨listing, listed, rfl⟩ := bounty
    obtain ⟨other, otherListed, rfl⟩ :=
      serving.bountyOffered otherOffered (sameKind.symm.trans kind)
    rw [listed] at otherListed
    rw [Option.some.inj otherListed]

end Uniqueness

variable [Scalar α] {books : Books α} {pays : LockingScript → Outpoint → Prop}

theorem isServing_empty
    (addresses : AddressBook)
    (costs : CostModel α) :
    (empty addresses costs).IsServing where
  contracts := ContractSchedule.isSound_empty
  bounties := BountySchedule.isSound_empty costs
  issued := by
    simp [empty, BountySchedule.empty, BountySchedule.listing?, Ranking.empty, Ranking.get?]

theorem listsPaid_empty
    (pays : LockingScript → Outpoint → Prop)
    (addresses : AddressBook)
    (costs : CostModel α) :
    (empty addresses costs).ListsPaid pays where
  contracts := by simp [empty, ContractSchedule.empty, ContractQueue.empty]
  bounties := by
    simp [empty, BountySchedule.empty, BountySchedule.listing?, Ranking.empty, Ranking.get?]

section Payment

variable {output : Output} {draw : α}

/-- Ranking lists what was listed, up to its outputs, and a new bounty with the
address that is handed out for it. -/
theorem IsServing.of_listing?_rankBounty
    (serving : books.IsServing)
    (named : output.script.id = output.id)
    (regular : output.script.IsRegular)
    (distinct : (books.rankBounty output draw).addresses.NeverRepeats)
    {id : Digest}
    {listing : Listing}
    (listed : (books.rankBounty output draw).bounties.listing? id = some listing) :
    (∃ earlier, books.bounties.listing? id = some earlier ∧
        listing.script = earlier.script ∧ listing.address = earlier.address) ∨
      listing.script = output.script ∧
        (books.rankBounty output draw).addresses.HasIssued listing.address := by
  rcases books.rankBounty_cases output draw with ⟨_, noted⟩ | ⟨unranked, entered⟩
  · rw [noted] at listed
    obtain ⟨earlier, before, rfl⟩ := BountySchedule.exists_of_listing?_addOutput listed
    refine Or.inl ⟨earlier, before, ?_⟩
    split
    · exact ⟨earlier.script_note _, earlier.address_note _⟩
    · exact ⟨rfl, rfl⟩
  · rw [entered] at distinct listed ⊢
    rcases (serving.bounties.insert_cases unranked named regular (serving.unused distinct)
      draw).2 with same | listings
    · rw [same] at listed
      exact Or.inl ⟨listing, listed, rfl, rfl⟩
    · rw [listings] at listed
      split at listed
      · obtain rfl := Option.some.inj listed
        exact Or.inr ⟨rfl, books.addresses.hasIssued_issue⟩
      · exact Or.inl ⟨listing, listed, rfl, rfl⟩

theorem IsServing.rankBounty
    (serving : books.IsServing)
    (named : output.script.id = output.id)
    (regular : output.script.IsRegular)
    (draw : α)
    (distinct : (books.rankBounty output draw).addresses.NeverRepeats) :
    (books.rankBounty output draw).IsServing where
  contracts := by
    rw [contracts_rankBounty]
    exact serving.contracts
  bounties := by
    rcases books.rankBounty_cases output draw with ⟨_, noted⟩ | ⟨unranked, entered⟩
    · rw [noted]
      exact serving.bounties.addOutput output
    · rw [entered] at distinct ⊢
      exact (serving.bounties.insert_cases unranked named regular (serving.unused distinct)
        draw).1
  issued := by
    intro id listing listed
    rcases serving.of_listing?_rankBounty named regular distinct listed with
      ⟨earlier, before, _, address⟩ | ⟨_, issued⟩
    · rw [address]
      rcases books.addresses_rankBounty output draw with same | issued
      · rw [same]
        exact serving.issued id earlier before
      · rw [issued]
        exact (serving.issued id earlier before).issue
    · exact issued

theorem IsServing.acceptContract
    (serving : books.IsServing)
    (named : output.script.id = output.id)
    (regular : output.script.IsRegular) :
    (books.acceptContract output).IsServing where
  contracts := by
    rcases books.acceptContract_cases output with
      ⟨_, ignored⟩ | ⟨sale, _, _, queued⟩ | ⟨_, _, _, noted⟩
    · rw [ignored]
      exact serving.contracts
    · rw [queued]
      exact serving.contracts.insert named regular sale.secret
    · rw [noted]
      exact serving.contracts.addOutput output
  bounties := by
    rw [bounties_acceptContract]
    exact serving.bounties
  issued := by
    rw [bounties_acceptContract, addresses_acceptContract]
    exact serving.issued

variable {now : Instant} {script : LockingScript} {value : UInt64} {outpoint : Outpoint}

/-- Whatever output appears, the queues go on serving. -/
theorem IsServing.pay
    (serving : books.IsServing)
    (regular : script.IsRegular)
    (distinct : (books.pay now draw script value outpoint).2.addresses.NeverRepeats) :
    (books.pay now draw script value outpoint).2.IsServing := by
  rcases books.pay_cases now draw script value outpoint with
    refused | known | ⟨_, _, ⟨_, ranked⟩ | ⟨_, accepted⟩⟩
  · rw [refused]
    exact serving
  · rw [known]
    exact serving.of_ledger _
  · rw [ranked] at distinct ⊢
    exact (serving.of_ledger _).rankBounty rfl regular draw distinct
  · rw [accepted]
    exact (serving.of_ledger _).acceptContract rfl regular

/-- An output that appears changes no job that is offered. -/
theorem IsServing.offers_pay
    (serving : books.IsServing)
    (regular : script.IsRegular)
    (distinct : (books.pay now draw script value outpoint).2.addresses.NeverRepeats)
    {id : Digest}
    {job : Job}
    (offered : books.Offers id job) :
    (books.pay now draw script value outpoint).2.Offers id job := by
  rcases books.pay_cases now draw script value outpoint with
    refused | known | ⟨_, _, ⟨_, ranked⟩ | ⟨_, accepted⟩⟩
  · rw [refused]
    exact offered
  · rw [known]
    exact offered
  · rw [ranked] at distinct ⊢
    rcases (books.recorded now script value outpoint).rankBounty_cases
        (Output.ofScript outpoint script value) draw with ⟨_, noted⟩ | ⟨unranked, entered⟩
    · rw [noted]
      exact offered.imp_right fun offered => offered.addOutput _
    · rw [entered] at distinct ⊢
      exact offered.imp_right fun offered =>
        serving.bounties.offers_insert unranked rfl regular (serving.unused distinct) draw offered
  · rw [accepted]
    rcases (books.recorded now script value outpoint).acceptContract_cases
        (Output.ofScript outpoint script value) with
      ⟨_, ignored⟩ | ⟨_, _, _, queued⟩ | ⟨_, _, _, noted⟩
    · rw [ignored]
      exact offered
    · rw [queued]
      exact offered.imp_left fun offered => offered.insert _
    · rw [noted]
      exact offered.imp_left fun offered => offered.addOutput _

/-- A contract in the queue after accepting was there before, or has the script of
the output. -/
theorem of_mem_acceptContract
    {contract : ContractJob}
    (present : contract ∈ (books.acceptContract output).contracts.queue.jobs) :
    contract.output.script = output.script ∨ ∃ earlier ∈ books.contracts.queue.jobs,
      contract.output.script = earlier.output.script := by
  rcases books.acceptContract_cases output with
    ⟨_, ignored⟩ | ⟨sale, _, _, queued⟩ | ⟨_, _, _, noted⟩
  · rw [ignored] at present
    exact Or.inr ⟨contract, present, rfl⟩
  · rw [queued] at present
    dsimp only at present
    rw [ContractSchedule.queue_insert] at present
    rcases books.contracts.queue.push_cases (ContractJob.ofOutput output sale.secret) with
      same | ⟨_, jobs⟩
    · rw [same] at present
      exact Or.inr ⟨contract, present, rfl⟩
    · rw [jobs, List.mem_append, List.mem_singleton] at present
      rcases present with before | rfl
      · exact Or.inr ⟨contract, before, rfl⟩
      · exact Or.inl rfl
  · rw [noted] at present
    rcases ContractQueue.of_mem_addToFirst present with kept | ⟨earlier, before, _, rfl⟩
    · exact Or.inr ⟨contract, kept, rfl⟩
    · exact Or.inr ⟨earlier, before, by rw [ContractJob.output_addOutpoint]⟩

/-- Whatever output appears, the queues list scripts that were paid. -/
theorem ListsPaid.pay
    (listsPaid : books.ListsPaid pays)
    (serving : books.IsServing)
    (regular : script.IsRegular)
    (paid : pays script outpoint)
    (distinct : (books.pay now draw script value outpoint).2.addresses.NeverRepeats) :
    (books.pay now draw script value outpoint).2.ListsPaid pays := by
  rcases books.pay_cases now draw script value outpoint with
    refused | known | ⟨_, _, ⟨_, ranked⟩ | ⟨_, accepted⟩⟩
  · rw [refused]
    exact listsPaid
  · rw [known]
    exact ⟨listsPaid.contracts, listsPaid.bounties⟩
  · rw [ranked] at distinct ⊢
    constructor
    · rw [contracts_rankBounty]
      exact listsPaid.contracts
    · intro id listing listed
      rcases (serving.of_ledger _).of_listing?_rankBounty rfl regular distinct listed with
        ⟨earlier, before, same, _⟩ | ⟨same, _⟩
      · rw [same]
        exact listsPaid.bounties id earlier before
      · rw [same]
        exact ⟨outpoint, paid⟩
  · rw [accepted]
    constructor
    · intro contract present
      rcases of_mem_acceptContract present with same | ⟨earlier, before, same⟩
      · rw [same]
        exact ⟨outpoint, paid⟩
      · rw [same]
        exact listsPaid.contracts earlier before
    · rw [bounties_acceptContract]
      exact listsPaid.bounties

end Payment

section Spending

variable {draw : α} {outpoint : Outpoint} {spender : Digest}

/-- Whatever output is spent, the queues go on serving. -/
theorem IsServing.spend
    (serving : books.IsServing)
    (draw : α)
    (outpoint : Outpoint)
    (spender : Digest) :
    (books.spend draw outpoint spender).2.IsServing := by
  rcases books.spend_cases draw outpoint spender with unknown | ⟨id, _, ⟨_, kept⟩ | redeemed⟩
  · rw [unknown]
    exact serving
  · rw [kept]
    exact serving.of_ledger _
  · rw [redeemed]
    refine ⟨serving.contracts.remove id, serving.bounties.remove id draw, ?_⟩
    intro other listing listed
    rw [BountySchedule.listing?_remove] at listed
    exact serving.issued other listing (serving.bounties.of_listing?_without listed).2

/-- A spent output changes no job but that of the script it redeems. -/
theorem IsServing.offers_spend
    (serving : books.IsServing)
    {id : Digest}
    {job : Job}
    (other : (books.spend draw outpoint spender).1 ≠ some id)
    (offered : books.Offers id job) :
    (books.spend draw outpoint spender).2.Offers id job := by
  rcases books.spend_cases draw outpoint spender with
    unknown | ⟨redeemedId, _, ⟨_, spent⟩ | redeemed⟩
  · rw [unknown]
    exact offered
  · rw [spent]
    exact offered
  · rw [redeemed] at other ⊢
    have different : id ≠ redeemedId := fun same => other (congrArg some same.symm)
    exact offered.imp (fun offered => offered.remove different)
      fun offered => serving.bounties.offers_remove offered different draw

theorem ListsPaid.spend
    (listsPaid : books.ListsPaid pays)
    (serving : books.IsServing)
    (draw : α)
    (outpoint : Outpoint)
    (spender : Digest) :
    (books.spend draw outpoint spender).2.ListsPaid pays := by
  rcases books.spend_cases draw outpoint spender with unknown | ⟨id, _, ⟨_, kept⟩ | redeemed⟩
  · rw [unknown]
    exact listsPaid
  · rw [kept]
    exact ⟨listsPaid.contracts, listsPaid.bounties⟩
  · rw [redeemed]
    constructor
    · intro contract present
      change contract ∈ (books.contracts.queue.remove id).2.jobs at present
      rw [ContractQueue.jobs_remove] at present
      exact listsPaid.contracts contract (List.mem_filter.mp present).1
    · intro other listing listed
      rw [BountySchedule.listing?_remove] at listed
      exact listsPaid.bounties other listing (serving.bounties.of_listing?_without listed).2

end Spending

end Books
end WorkMarket
