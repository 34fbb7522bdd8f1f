import Mathlib.Data.List.Induction
import WorkMarket.Proofs.Market.BooksListings
import WorkMarket.Proofs.Pool.Consistency

/-!
# What is queued tells its history

The outputs of a queued script are those that arrived and were accepted since
the script entered its queue, in order of arrival.  The address of a bounty is
the one recorded when it entered, and the key of a contract that of the last
offer before it did.  What the queues have let go of never comes back.
-/

namespace WorkMarket
namespace Pool

section Notions

variable {α : Type}

/-- Whether a script is in its queue. -/
def isQueued
    (pool : Pool α)
    (script : LockingScript) :
    Bool :=
  match script.kind with
  | .invalid => false
  | .bounty => pool.books.bounties.ranking.contains script.id
  | .contract => pool.books.contracts.queue.contains script.id

/-- Whether the last offer that a history holds for a name has a key. -/
def LastOffered
    (history : List (Operation α))
    (id : Digest)
    (secret : Secret) : Prop :=
  ∃ earlier offer later, history = earlier ++ offer :: later ∧ offer.IsOffer id secret ∧
    ∀ other ∈ later, ∀ otherSecret, ¬other.IsOffer id otherSecret

/-- Of two operations in a history one comes first, unless they are the same. -/
theorem split_cases
    {before since otherBefore otherSince : List (Operation α)}
    {operation other : Operation α}
    (same : before ++ operation :: since = otherBefore ++ other :: otherSince) :
    (before = otherBefore ∧ operation = other ∧ since = otherSince) ∨
      (∃ between, otherBefore = before ++ operation :: between ∧
        since = between ++ other :: otherSince) ∨
      ∃ between, before = otherBefore ++ other :: between ∧
        otherSince = between ++ operation :: since := by
  rcases List.append_eq_append_iff.mp same with
    ⟨between, isLater, rest⟩ | ⟨between, isLater, rest⟩
  · cases between with
    | nil =>
        rw [List.append_nil] at isLater
        obtain ⟨rfl, rfl⟩ := List.cons.inj rest
        exact Or.inl ⟨isLater.symm, rfl, rfl⟩
    | cons first between =>
        obtain ⟨rfl, within⟩ := List.cons.inj rest
        exact Or.inr (Or.inl ⟨between, isLater, within⟩)
  · cases between with
    | nil =>
        rw [List.append_nil] at isLater
        obtain ⟨rfl, rfl⟩ := List.cons.inj rest
        exact Or.inl ⟨isLater, rfl, rfl⟩
    | cons first between =>
        obtain ⟨rfl, within⟩ := List.cons.inj rest
        exact Or.inr (Or.inr ⟨between, isLater, within⟩)

/-- There is but one key of the last offer for a name. -/
theorem LastOffered.unique
    {history : List (Operation α)}
    {id : Digest}
    {secret otherSecret : Secret}
    (last : LastOffered history id secret)
    (otherLast : LastOffered history id otherSecret) :
    secret = otherSecret := by
  obtain ⟨before, offer, since, split, offered, silent⟩ := last
  obtain ⟨otherBefore, other, otherSince, otherSplit, otherOffered, otherSilent⟩ := otherLast
  rcases split_cases (split.symm.trans otherSplit) with
    ⟨_, rfl, _⟩ | ⟨between, _, within⟩ | ⟨between, _, within⟩
  · obtain ⟨_, _, _, rfl, _⟩ := offered
    obtain ⟨_, _, _, ⟨⟩, _⟩ := otherOffered
    rfl
  · have isLater : other ∈ since := within ▸ List.mem_append_right between List.mem_cons_self
    exact absurd otherOffered (silent other isLater otherSecret)
  · have isLater : offer ∈ otherSince :=
      within ▸ List.mem_append_right between List.mem_cons_self
    exact absurd offered (otherSilent offer isLater secret)

end Notions

variable {α : Type} [Scalar α] {pool start : Pool α}

/-- The output of a script that an operation brings, unless it is refused. -/
def accepted
    (pool : Pool α)
    (script : LockingScript) :
    Operation α → List Outpoint
  | .pay now draw paid value outpoint =>
      if paid = script ∧ (pool.pay now draw paid value outpoint).1 ≠ .invalid then [outpoint]
      else []
  | .spend _ _ _ | .offer _ _ _ _ | .assign _ | .release _ | .complete _ _ _
  | .rearrange _ => []

/-- The outputs of a script that operations bring in turn. -/
def arrivals
    (script : LockingScript) :
    Pool α → List (Operation α) → List Outpoint
  | _, [] => []
  | pool, operation :: rest =>
      pool.accepted script operation ++ arrivals script (pool.step operation) rest

/-- A script enters its queue by one operation and stays there during others. -/
structure Stays
    (start : Pool α)
    (script : LockingScript)
    (before : List (Operation α))
    (entry : Operation α)
    (since : List (Operation α)) : Prop where
  /-- An output of the script brings it there. -/
  entered : ∃ outpoint, entry.Pays script outpoint
  /-- It is not queued before. -/
  absent : (start.run before).isQueued script = false
  /-- It is queued after the entry and after each operation since. -/
  queued : ∀ shorter, shorter <+: since →
    (start.run (before ++ entry :: shorter)).isQueued script = true

/-- What the history of a chain asks of an operation: outputs come with one
script each, names do not collide, no address is handed out twice, and no
contract is offered while it is queued. -/
structure IsChainStep
    (pays : LockingScript → Outpoint → Prop)
    (pool : Pool α)
    (operation : Operation α) : Prop where
  chain : IsChain pays
  names : NamesDiffer pays
  paid : ∀ script outpoint, operation.Pays script outpoint → pays script outpoint
  addresses : (pool.step operation).books.addresses.NeverRepeats
  noOffer : ∀ id secret, operation.IsOffer id secret →
    pool.books.contracts.queue.contains id = false

/-- The history of a chain: outputs come with one script each, no address is
handed out twice, names do not collide, and no contract is offered while it is
queued. -/
structure IsChainRun
    (start : Pool α)
    (history : List (Operation α)) : Prop where
  chain : IsChain (Pays history)
  addresses : (start.run history).books.addresses.NeverRepeats
  noCollision : ∀ script other outpoint otherOutpoint, Pays history script outpoint →
    Pays history other otherOutpoint → hash256 script.write = hash256 other.write →
    script.write = other.write
  noOffer : ∀ earlier operation later id secret, history = earlier ++ operation :: later →
    operation.IsOffer id secret → (start.run earlier).books.contracts.queue.contains id = false

section Basics

/-- What shows no output brings none. -/
theorem accepted_of_silent
    (pool : Pool α)
    (script : LockingScript)
    {operation : Operation α}
    (silent : ∀ script outpoint, ¬operation.Pays script outpoint) :
    pool.accepted script operation = [] := by
  cases operation with
  | pay now draw paid value outpoint => exact absurd ⟨now, draw, value, rfl⟩ (silent paid outpoint)
  | spend | offer | assign | release | complete | rearrange => rfl

/-- Only an output of the script is accepted for it. -/
theorem exists_pays_of_accepted
    {script : LockingScript}
    {operation : Operation α}
    (brought : pool.accepted script operation ≠ []) :
    ∃ outpoint, operation.Pays script outpoint := by
  cases operation with
  | pay now draw paid value outpoint =>
      by_cases same : paid = script
      · rw [same]
        exact ⟨outpoint, now, draw, value, rfl⟩
      · exact absurd (if_neg fun suited => same suited.1) brought
  | spend | offer | assign | release | complete | rearrange => contradiction

theorem arrivals_append
    (script : LockingScript)
    (pool : Pool α)
    (first second : List (Operation α)) :
    arrivals script pool (first ++ second) =
      arrivals script pool first ++ arrivals script (pool.run first) second := by
  induction first generalizing pool with
  | nil => rfl
  | cons operation rest inductionHypothesis =>
      rw [List.cons_append, arrivals, inductionHypothesis, arrivals, List.append_assoc]
      rfl

/-- Each operation in the history of a chain is as a chain asks. -/
theorem IsChainRun.isChainStep
    {history earlier later : List (Operation α)}
    {operation : Operation α}
    (isRun : start.IsChainRun history)
    (split : history = earlier ++ operation :: later) :
    (start.run earlier).IsChainStep (Pays history) operation where
  chain := isRun.chain
  names := namesDiffer_of_built isRun.chain.built isRun.noCollision
  paid := pays_of_split split
  addresses := neverRepeats_of_split split isRun.addresses
  noOffer := fun id secret => isRun.noOffer earlier operation later id secret split

end Basics

section Retirement

variable {pays : LockingScript → Outpoint → Prop} {books : Books α} {id : Digest} {job : Job}

/-- Retiring a contract takes its listing away, and no other. -/
theorem contracts_retire
    (sound : books.IsSound pays)
    (exact : books.IsExact pays)
    (offered : books.Offers id job)
    (draw : α)
    (solution : Option Solution)
    (other : Digest) :
    (retire books draw id job solution).contracts.listing? other =
      if job.kind = .contract ∧ id = other then none else books.contracts.listing? other := by
  unfold retire
  cases kind : job.kind with
  | invalid => simp
  | bounty => simp
  | contract =>
      obtain ⟨contract, front, rfl, rfl⟩ := sound.isServing.contractOffered offered kind
      simp only [true_and]
      exact sound.contracts.listing?_finish exact.distinct front other

/-- Retiring a bounty takes its listing away, and no other. -/
theorem bounties_retire
    (sound : books.IsSound pays)
    (offered : books.Offers id job)
    (draw : α)
    (solution : Option Solution)
    (other : Digest) :
    (retire books draw id job solution).bounties.listing? other =
      if job.kind = .bounty ∧ id = other then none else books.bounties.listing? other := by
  unfold retire
  cases kind : job.kind with
  | invalid => simp
  | contract => simp
  | bounty =>
      obtain ⟨listing, listed, rfl⟩ := sound.isServing.bountyOffered offered kind
      simp only [true_and]
      exact sound.bounties.listing?_finish listed draw other

/-- What is retired is no longer listed. -/
theorem listing?_retire
    (sound : books.IsSound pays)
    (exact : books.IsExact pays)
    (offered : books.Offers id job)
    (draw : α)
    (solution : Option Solution)
    (script : LockingScript) :
    (retire books draw id job solution).listing? script =
      if job.kind = script.kind ∧ id = script.id then none else books.listing? script := by
  cases kind : script.kind with
  | invalid => simp [Books.listing?, kind]
  | bounty =>
      rw [Books.listing?_of_bounty _ kind, Books.listing?_of_bounty _ kind,
        bounties_retire sound offered]
  | contract =>
      rw [Books.listing?_of_contract _ kind, Books.listing?_of_contract _ kind,
        contracts_retire sound exact offered]

/-- Whatever is retired, the books stay exact. -/
theorem isExact_retire
    (sound : books.IsSound pays)
    (exact : books.IsExact pays)
    (offered : books.Offers id job)
    (draw : α)
    (solution : Option Solution) :
    (retire books draw id job solution).IsExact pays := by
  have contracts {other : Digest} {listing : Listing}
      (listed : (retire books draw id job solution).contracts.listing? other = some listing) :
      ¬(job.kind = .contract ∧ id = other) ∧ books.contracts.listing? other = some listing := by
    rw [contracts_retire sound exact offered, Option.ite_none_left_eq_some] at listed
    exact listed
  refine ⟨?_, ?_, ?_, ?_⟩
  · unfold retire
    cases job.kind with
    | invalid => exact exact.distinct
    | bounty => exact exact.distinct
    | contract => exact exact.distinct.finish job.puzzle
  · exact fun other listing listed => exact.contracts_paid other listing (contracts listed).2
  · intro other listing listed
    rw [bounties_retire sound offered, Option.ite_none_left_eq_some] at listed
    exact exact.bounties_paid other listing listed.2
  · intro other listing listed
    obtain ⟨different, before⟩ := contracts listed
    rw [sales_retire books draw id job solution fun kind same => different ⟨kind, same⟩]
    exact exact.accepted other listing before

end Retirement

section Steps

variable {pays : LockingScript → Outpoint → Prop} {operation : Operation α}

/-- What is queued is what is listed for a script. -/
theorem isQueued_eq
    (sound : pool.IsSound pays)
    (script : LockingScript) :
    pool.isQueued script = (pool.books.listing? script).isSome := by
  unfold isQueued Books.listing?
  cases script.kind with
  | invalid => rfl
  | bounty => exact sound.books.bounties.contains_eq script.id
  | contract => exact pool.books.contracts.contains_eq script.id

/-- One operation keeps the books exact. -/
theorem isExact_step
    (sound : pool.IsSound pays)
    (exact : pool.books.IsExact pays)
    (allowed : pool.IsChainStep pays operation) :
    (pool.step operation).books.IsExact pays := by
  obtain ⟨chain, _, paid, distinct, noOffer⟩ := allowed
  have changed := pool.booksStep operation
  generalize (pool.step operation).books = next at changed distinct ⊢
  cases changed with
  | pay now draw script value outpoint =>
      exact exact.pay sound.books chain (paid script outpoint ⟨now, draw, value, rfl⟩) now draw
        value distinct
  | spend draw outpoint spender => exact exact.spend sound.books draw outpoint spender
  | offer now job secret expiresAt contract valid keyed =>
      refine ⟨exact.distinct, exact.contracts_paid, exact.bounties_paid, ?_⟩
      intro other listing listed
      have different : (Sale.offer now job secret expiresAt).id ≠ other := by
        rintro rfl
        have absent := noOffer job.id secret
          ⟨now, job, expiresAt, rfl, rfl, contract, valid, keyed⟩
        rw [ContractSchedule.contains_eq] at absent
        change pool.books.contracts.listing? job.id = some listing at listed
        rw [listed] at absent
        contradiction
      obtain ⟨sale, found, rest⟩ := exact.accepted other listing listed
      refine ⟨sale, ?_, rest⟩
      change Keyed.get? (Keyed.put _ _ _) other = some sale
      rw [Keyed.get?_put, if_neg different]
      exact found
  | complete draw id solution job tracked =>
      exact isExact_retire sound.books exact (sound.offered id job tracked) draw solution
  | kept => exact exact

/-- One operation lists for a script just what it brings. -/
theorem grew_step
    (sound : pool.IsSound pays)
    (exact : pool.books.IsExact pays)
    (allowed : pool.IsChainStep pays operation)
    {script : LockingScript}
    {outpoint : Outpoint}
    (scriptPaid : pays script outpoint)
    (valid : script.isValid = true) :
    pool.books.Grew (pool.step operation).books script (pool.accepted script operation) := by
  obtain ⟨chain, names, paid, distinct, _⟩ := allowed
  have changed := pool.booksStep operation
  generalize (pool.step operation).books = next at changed distinct ⊢
  cases changed with
  | pay now draw paidScript value outpoint =>
      exact sound.books.grew_pay exact chain names
        (paid paidScript outpoint ⟨now, draw, value, rfl⟩) now draw value distinct scriptPaid valid
  | spend =>
      exact Books.grew_nil_of_subset fun listing listed => sound.books.of_listing?_spend listed
  | offer => exact Books.grew_nil_of_subset fun listing listed => listed
  | complete draw id solution job tracked =>
      apply Books.grew_nil_of_subset
      intro listing listed
      rw [listing?_retire sound.books exact (sound.offered id job tracked),
        Option.ite_none_left_eq_some] at listed
      exact listed.2
  | kept _ silent _ =>
      rw [accepted_of_silent pool script silent]
      exact Books.grew_nil_of_subset fun listing listed => listed

/-- Only an output that was not registered before is new to a queue. -/
theorem of_holds_step
    (sound : pool.IsSound pays)
    (allowed : pool.IsChainStep pays operation)
    {id : Digest}
    {outpoint : Outpoint}
    (held : (pool.step operation).books.Holds id outpoint) :
    pool.books.Holds id outpoint ∨ pool.books.ledger.owners.get? outpoint = none := by
  obtain ⟨chain, _, paid, distinct, _⟩ := allowed
  have changed := pool.booksStep operation
  generalize (pool.step operation).books = next at changed distinct held
  cases changed with
  | pay now draw paidScript value outpoint =>
      exact sound.books.of_holds_pay chain (paid paidScript outpoint ⟨now, draw, value, rfl⟩)
        distinct held
  | spend => exact Or.inl (sound.books.of_holds_spend held)
  | offer => exact Or.inl held
  | complete => exact Or.inl (of_holds_retire sound.books held)
  | kept => exact Or.inl held

end Steps

section Runs

variable {settings : PoolSettings α} {addresses : AddressBook}
  {history earlier later : List (Operation α)}

/-- At any time in the history of a chain the pool is sound. -/
theorem IsChainRun.isSound
    (isRun : (fresh settings addresses).IsChainRun history)
    (split : history = earlier ++ later) :
    ((fresh settings addresses).run earlier).IsSound (Pays history) := by
  apply (isSound_fresh _ settings addresses).run isRun.chain
  · rintro script outpoint ⟨operation, present, paid⟩
    rw [split]
    exact ⟨operation, List.mem_append_left later present, paid⟩
  · have distinct := isRun.addresses
    rw [split, run_append] at distinct
    exact neverRepeats_of_run later distinct

/-- At any time in the history of a chain the books are exact. -/
theorem IsChainRun.isExact
    (isRun : (fresh settings addresses).IsChainRun history)
    (split : history = earlier ++ later) :
    ((fresh settings addresses).run earlier).books.IsExact (Pays history) := by
  induction earlier using List.reverseRecOn generalizing later with
  | nil => exact Books.isExact_empty _ addresses settings.costs
  | append_singleton earlier operation inductionHypothesis =>
      rw [List.append_assoc, List.singleton_append] at split
      rw [run_concat]
      exact isExact_step (isRun.isSound split) (inductionHypothesis split)
        (isRun.isChainStep split)

/-- The key of a sale is that of the last offer for its name. -/
theorem lastOffered_of_sale
    {id : Digest}
    {sale : Sale}
    (found : Keyed.get? ((fresh settings addresses).run history).books.sales id = some sale) :
    LastOffered history id sale.secret := by
  induction history using List.reverseRecOn generalizing sale with
  | nil => contradiction
  | append_singleton earlier operation inductionHypothesis =>
      rw [run_concat] at found
      rcases sale_step found with offered | ⟨unoffered, before, foundBefore, same⟩
      · exact ⟨earlier, operation, [], rfl, offered, by simp⟩
      · obtain ⟨first, offer, rest, rfl, offered, silent⟩ := inductionHypothesis foundBefore
        rw [same]
        refine ⟨first, offer, rest ++ [operation], by simp, offered, ?_⟩
        intro other present
        rcases List.mem_append.mp present with inRest | isLast
        · exact silent other inRest
        · rw [List.mem_singleton.mp isLast]
          exact unoffered

/-- A script stays queued during one more operation. -/
theorem Stays.concat
    {script : LockingScript}
    {before since : List (Operation α)}
    {entry operation : Operation α}
    (stays : start.Stays script before entry since)
    (queued : (start.run (before ++ entry :: (since ++ [operation]))).isQueued script = true) :
    start.Stays script before entry (since ++ [operation]) where
  entered := stays.entered
  absent := stays.absent
  queued := by
    intro shorter isPrefix
    rcases List.prefix_concat_iff.mp isPrefix with rfl | within
    · exact queued
    · exact stays.queued shorter within

/-- There is but one last time that a script entered its queue. -/
theorem Stays.unique
    {script : LockingScript}
    {before since otherBefore otherSince : List (Operation α)}
    {entry otherEntry : Operation α}
    (stays : start.Stays script before entry since)
    (otherStays : start.Stays script otherBefore otherEntry otherSince)
    (same : before ++ entry :: since = otherBefore ++ otherEntry :: otherSince) :
    before = otherBefore ∧ entry = otherEntry ∧ since = otherSince := by
  rcases split_cases same with equal | ⟨between, isLater, within⟩ | ⟨between, isLater, within⟩
  · exact equal
  · have queued := stays.queued between (within ▸ List.prefix_append _ _)
    rw [← isLater, otherStays.absent] at queued
    contradiction
  · have queued := otherStays.queued between (within ▸ List.prefix_append _ _)
    rw [← isLater, stays.absent] at queued
    contradiction

/-- What is listed for a script holds the outputs that arrived since it entered
its queue, and the address and the key that it had then. -/
theorem IsChainRun.exists_stays
    (isRun : (fresh settings addresses).IsChainRun history)
    {script : LockingScript}
    {outpoint : Outpoint}
    (paid : Pays history script outpoint)
    (valid : script.isValid = true)
    (split : history = earlier ++ later)
    {listing : Listing}
    (listed : ((fresh settings addresses).run earlier).books.listing? script = some listing) :
    ∃ before entry since first, earlier = before ++ entry :: since ∧
      (fresh settings addresses).Stays script before entry since ∧
      listing.outpoints =
        arrivals script ((fresh settings addresses).run before) (entry :: since) ∧
      ((fresh settings addresses).run (before ++ [entry])).books.listing? script = some first ∧
      first.address = listing.address ∧ first.secret = listing.secret := by
  induction earlier using List.reverseRecOn generalizing later listing with
  | nil =>
      rcases Books.listing?_cases listed with ⟨_, nothing⟩ | ⟨_, nothing⟩
      · contradiction
      · contradiction
  | append_singleton earlier operation inductionHypothesis =>
      have sound := isRun.isSound split
      have queued := isQueued_eq sound script
      rw [listed] at queued
      rw [List.append_assoc, List.singleton_append] at split
      have soundBefore := isRun.isSound split
      have grew := grew_step soundBefore (isRun.isExact split) (isRun.isChainStep split) paid valid
      rw [← run_concat] at grew
      rcases grew listing listed with ⟨listing, listedBefore, rfl⟩ | ⟨unlisted, outpoints⟩
      · obtain ⟨before, entry, since, first, rfl, stays, arrived, rest⟩ :=
          inductionHypothesis split listedBefore
        refine ⟨before, entry, since ++ [operation], first, by simp, stays.concat ?_, ?_, rest⟩
        · rw [← List.cons_append, ← List.append_assoc]
          exact queued
        · rw [← List.cons_append, arrivals_append, ← run_append, ← arrived]
          simp [Listing.extend, arrivals]
      · have brought := (sound.books.of_listing? listed).1.outpoints_ne_nil
        rw [outpoints] at brought
        refine ⟨earlier, operation, [], listing, rfl,
          ⟨exists_pays_of_accepted brought, ?_, ?_⟩, ?_, listed, rfl, rfl⟩
        · rw [isQueued_eq soundBefore, unlisted]
          rfl
        · intro shorter isPrefix
          rw [List.prefix_nil.mp isPrefix]
          exact queued
        · simp [outpoints, arrivals]

end Runs

end Pool
end WorkMarket
