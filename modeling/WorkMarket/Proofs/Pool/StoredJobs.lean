import WorkMarket.Proofs.Pool.Operations
import WorkMarket.Proofs.Work.JobScripts

/-!
# The names that jobs are stored under

Offers and jobs in progress are stored under the name of the script that is read
off a job.  There is such a script if what precedes the address in the header is
short enough for a tag.  A job with a longer header can be worked on all the
same, but no script is read off it: all such jobs go by the absent digest, and
are stored in each other's place.
-/

namespace WorkMarket

theorem LockingScript.tagged_of_lt
    {script : LockingScript}
    (long : maxTagSize < script.tag.length) :
    tagged script = absent :=
  if_pos long

namespace Job

variable {job : Job}

/-- Whether a job comes from a script.  The script that is read off it is one of
its kind, gives its miner the job again but for the path of the puzzle, and its
bytes name the job. -/
structure HasScript (job : Job) : Prop where
  isValid_lockingScript : job.lockingScript.isValid = true
  kind_lockingScript : job.lockingScript.kind = job.kind
  again : ofScript job.lockingScript job.minerAddress =
    { job with puzzle := { job.puzzle with path := MerklePath.empty } }
  isValid_again : (ofScript job.lockingScript job.minerAddress).isValid = true
  id_eq : job.id = hash256 job.lockingScript.write

/-- A job that can be worked on is of some kind, and its puzzle is filled. -/
theorem kind_and_isFilled_of_isValid
    (workable : job.isValid = true) :
    job.kind.isValid = true ∧ isFilled job.puzzle = true := by
  simp only [isValid, Bool.and_eq_true] at workable
  exact ⟨workable.1.1, workable.2⟩

/-- The path of a puzzle does not matter for whether it can be worked on. -/
theorem isValid_withoutPath
    (job : Job) :
    isValid { job with puzzle := { job.puzzle with path := MerklePath.empty } } = job.isValid :=
  rfl

/-- No script is read off a job whose header is too long for a tag. -/
theorem lockingScript_eq_absent
    (filled : isFilled job.puzzle = true)
    (long : 40 < job.puzzle.header.length) :
    job.lockingScript = LockingScript.absent := by
  have longTag : LockingScript.maxTagSize <
      (job.puzzle.header.take (job.puzzle.header.length - 20)).length := by
    rw [List.length_take, LockingScript.maxTagSize]
    omega
  unfold lockingScript
  rw [if_pos filled]
  cases job.kind with
  | invalid => rfl
  | bounty => exact LockingScript.tagged_of_lt longTag
  | contract => exact LockingScript.tagged_of_lt longTag

theorem hasScript_of_le
    (workable : job.isValid = true)
    (short : job.puzzle.header.length ≤ 40) :
    job.HasScript := by
  obtain ⟨kind, filled⟩ := kind_and_isFilled_of_isValid workable
  have script := lockingScript_eq kind filled short
  have again := ofScript_lockingScript kind filled short
  have valid : job.lockingScript.isValid = true := by
    rw [script]
    exact kind
  refine ⟨valid, by rw [script], again, ?_, if_pos valid⟩
  rw [again, isValid_withoutPath]
  exact workable

/-- A job that can be worked on comes from a script exactly if its header is no
longer than the longest tag and an address. -/
theorem hasScript_iff
    (workable : job.isValid = true) :
    job.HasScript ↔ job.puzzle.header.length ≤ 40 := by
  refine ⟨fun backed => ?_, hasScript_of_le workable⟩
  by_contra long
  have script := lockingScript_eq_absent (kind_and_isFilled_of_isValid workable).2
    (Nat.lt_of_not_le long)
  have valid := backed.isValid_lockingScript
  rw [script] at valid
  contradiction

end Job

section Storage

variable {α : Type}

/-- A contract that can be worked on is taken up with a key, under its name. -/
theorem Pool.offer_eq
    (pool : Pool α)
    (now : Instant)
    {job : Job}
    (contract : job.kind = .contract)
    (workable : job.isValid = true)
    {secret : Secret}
    (keyed : secret.isValid = true)
    (expiresAt : Instant) :
    pool.offer now job secret expiresAt =
      .ok (job.id, { pool with
        books := { pool.books with
          sales := SalesBook.enter pool.books.sales (Sale.offer now job secret expiresAt) } }) := by
  unfold offer
  rw [if_neg (by simp [contract, workable]), if_neg (by simp [keyed])]
  rfl

/-- An offer is answered with the name of its job, and entered under it. -/
theorem Pool.sale_of_offer
    {pool next : Pool α}
    {now : Instant}
    {job : Job}
    {secret : Secret}
    {expiresAt : Instant}
    {id : Digest}
    (offered : pool.offer now job secret expiresAt = .ok (id, next)) :
    id = job.id ∧ next.books.sales.get? job.id = some (Sale.offer now job secret expiresAt) := by
  obtain ⟨contract, workable, keyed, _⟩ := offer_cases offered
  rw [pool.offer_eq now contract workable keyed] at offered
  obtain ⟨rfl, rfl⟩ := Prod.mk.inj (Except.ok.inj offered)
  exact ⟨rfl, (Keyed.get?_put _ _ _ _).trans (if_pos rfl)⟩

/-- A worker who is let in on a job is entered under its name. -/
theorem WorkBoard.tracked_of_assign
    [Scalar α]
    {board : WorkBoard α}
    {job : Job}
    {worker : Waiting α}
    {expected : Duration}
    (accepted : (board.assign job worker).1 = .accepted expected) :
    ∃ tracked, (board.assign job worker).2.jobs.get? job.id = some tracked ∧
      tracked.job = (board.job? job.id).getD job ∧
        tracked.workers.get? worker.worker = some worker.hashpower := by
  rcases board.assign_cases job worker with ⟨refused, _⟩ | ⟨_, tracked, jobs, entry, workers⟩
  · exact absurd accepted (refused expected)
  · refine ⟨tracked, ?_, entry, ?_⟩
    · rw [jobs, Keyed.get?_put, if_pos rfl]
    · rw [workers, Keyed.get?_put, if_pos rfl]

end Storage

namespace Job

/-- Whether a job comes from a script, and is stored under the name of that
script whenever it is offered or a worker is put on it. -/
structure IsStoredByScript
    (α : Type)
    [Scalar α]
    (job : Job) : Prop extends job.HasScript where
  offered : ∀ (pool next : Pool α) now secret expiresAt id,
    pool.offer now job secret expiresAt = .ok (id, next) →
      id = hash256 job.lockingScript.write ∧
        next.books.sales.get? id = some (Sale.offer now job secret expiresAt)
  tracked : ∀ (board : WorkBoard α) worker expected,
    (board.assign job worker).1 = .accepted expected →
      ∃ tracked, (board.assign job worker).2.jobs.get? (hash256 job.lockingScript.write) =
          some tracked ∧
        tracked.job = (board.job? job.id).getD job ∧
          tracked.workers.get? worker.worker = some worker.hashpower

variable {job : Job}

theorem HasScript.isStoredByScript
    (backed : job.HasScript)
    (α : Type)
    [Scalar α] :
    job.IsStoredByScript α where
  toHasScript := backed
  offered := by
    intro pool next now secret expiresAt id offered
    obtain ⟨rfl, entered⟩ := Pool.sale_of_offer offered
    exact ⟨backed.id_eq, entered⟩
  tracked := by
    intro board worker expected accepted
    rw [← backed.id_eq]
    exact WorkBoard.tracked_of_assign accepted

/-- A job that can be worked on comes from a script, and is stored under its name,
exactly if its header is no longer than the longest tag and an address.  Every
job with a longer header goes by the absent digest. -/
theorem isStoredByScript_iff
    (α : Type)
    [Scalar α]
    (job : Job)
    (workable : job.isValid = true) :
    (job.IsStoredByScript α ↔ job.puzzle.header.length ≤ 40) ∧
      (40 < job.puzzle.header.length →
        job.lockingScript = LockingScript.absent ∧ job.id = Digest.absent) := by
  constructor
  · exact ⟨fun stored => (hasScript_iff workable).mp stored.toHasScript,
      fun short => (hasScript_of_le workable short).isStoredByScript α⟩
  · intro long
    have script := lockingScript_eq_absent (kind_and_isFilled_of_isValid workable).2 long
    exact ⟨script, by rw [id, script]; rfl⟩

/-- A contract with a header of some length. -/
def contractOfHeader
    (length : Nat) :
    Job :=
  ⟨.contract, ⟨0, Digest.absent, Target.easiest, MerklePath.empty, List.replicate length 9,
    [1, 0, 0, 0]⟩⟩

/-- A header of forty bytes leaves room for the longest tag. -/
theorem isStoredByScript_longestTag :
    (contractOfHeader 40).isValid = true ∧ (contractOfHeader 40).IsStoredByScript Rat :=
  ⟨by decide, (isStoredByScript_iff Rat (contractOfHeader 40) (by decide)).1.mpr (by decide)⟩

/-- One byte more, and the contract can be worked on and is taken up, but goes by
the absent digest. -/
theorem not_isStoredByScript_tooLongTag :
    (contractOfHeader 41).isValid = true ∧ ¬(contractOfHeader 41).IsStoredByScript Rat ∧
      ((Pool.fresh (PoolSettings.usual : PoolSettings Rat) (AddressBook.ofSeed (.filled 32 1))).offer
          ⟨0, 0⟩ (contractOfHeader 41) ⟨.filled 32 9⟩ ⟨1, 0⟩).map Prod.fst =
        .ok Digest.absent := by
  refine ⟨by decide, fun stored => ?_, ?_⟩
  · exact absurd ((hasScript_iff (by decide)).mp stored.toHasScript) (by decide)
  · rw [Pool.offer_eq _ _ rfl (by decide) (by decide)]
    exact congrArg Except.ok (by decide)

end Job

end WorkMarket
