import WorkMarket.Proofs.Pool.Reassignment
import WorkMarket.Proofs.Pool.Settlement

/-!
# Workers are neither lost nor doubled

An operation moves only the workers that it or its answer names.  A completion
answers for each worker of the finished job once.  Whom it assigns is on one
job, which has the assigned puzzle and keeps it for as long as it stays on the
board, so what solves the puzzle completes the job.
-/

namespace WorkMarket
namespace Pool

variable {α : Type} [Scalar α] {pool next start : Pool α}
  {pays : LockingScript → Outpoint → Prop}

section Steps

variable {operation : Operation α}

/-- The workers that an operation or its answer names. -/
def named
    (pool : Pool α) :
    Operation α → List WorkerId
  | .pay _ _ _ _ _ | .offer _ _ _ _ | .rearrange _ => []
  | .spend draw outpoint spender =>
      (pool.spend draw outpoint spender).1.map Waiting.worker
  | .assign worker => [worker.worker]
  | .release worker => [worker]
  | .complete draw id solution =>
      match pool.complete draw id solution with
      | .ok (settlement, _) =>
          settlement.assignments.map Assignment.worker ++ settlement.idle.map Waiting.worker
      | .error _ => []

/-- Who is on the job that a spent output redeems is freed, and nobody else. -/
theorem isBusy_spend
    (pool : Pool α)
    (draw : α)
    (outpoint : Outpoint)
    (spender : Digest)
    {worker : WorkerId}
    (busy : pool.IsBusy worker) :
    (pool.spend draw outpoint spender).2.IsBusy worker ∨
      worker ∈ (pool.spend draw outpoint spender).1.map Waiting.worker := by
  obtain ⟨id, has⟩ := busy
  rcases pool.spend_cases draw outpoint spender with
    ⟨_, kept⟩ | ⟨redeemed, completion, board, _, completed, left⟩
  · rw [kept]
    exact Or.inl ⟨id, has⟩
  · rw [left]
    by_cases same : redeemed = id
    · right
      subst same
      dsimp only
      rw [WorkBoard.workers_completion completed]
      exact (pool.board.hasWorker_iff_mem_workers redeemed worker).mp has
    · exact Or.inl ⟨id, (WorkBoard.hasWorker_complete_iff completed id worker).mpr ⟨same, has⟩⟩

/-- Nobody but the worker who asks for work is moved. -/
theorem IsServing.isBusy_assign
    (serving : pool.IsServing)
    (listsPaid : pool.books.ListsPaid pays)
    (names : NamesDiffer pays)
    {waiting : Waiting α}
    {worker : WorkerId}
    (different : worker ≠ waiting.worker)
    (busy : pool.IsBusy worker) :
    (pool.assign waiting).2.IsBusy worker := by
  obtain ⟨id, has⟩ := busy
  have stays : (pool.vacated waiting.worker).board.HasWorker id worker :=
    serving.board.hasWorker_release has different
  rcases serving.admits_assign listsPaid names waiting with
    refused | ⟨_, _, next, assigned, admits⟩
  · rw [refused]
    exact ⟨id, stays⟩
  · rw [assigned]
    exact ⟨id, (admits.hasWorker_iff id worker).mpr (Or.inl stays)⟩

/-- Nobody but the workers of the finished job is moved, and these are named. -/
theorem IsServing.isBusy_complete
    (serving : pool.IsServing)
    (listsPaid : pool.books.ListsPaid pays)
    (names : NamesDiffer pays)
    {draw : α}
    {id : Digest}
    {solution : Option Solution}
    {settlement : Settlement α}
    (completed : pool.complete draw id solution = .ok (settlement, next))
    {worker : WorkerId}
    (busy : pool.IsBusy worker) :
    next.IsBusy worker ∨
      worker ∈ settlement.assignments.map Assignment.worker ++
        settlement.idle.map Waiting.worker := by
  obtain ⟨vacant, ⟨_, finished⟩, _, deals⟩ := serving.deals_complete listsPaid names completed
  obtain ⟨other, has⟩ := busy
  by_cases same : id = other
  · subst same
    right
    rw [deals.shared.mem_iff]
    exact (pool.board.hasWorker_iff_mem_workers id worker).mp has
  · have stays := (WorkBoard.hasWorker_complete_iff finished other worker).mpr ⟨same, has⟩
    exact Or.inl ⟨other, deals.hasWorker stays⟩

/-- No operation loses a worker without naming it. -/
theorem IsServing.isBusy_step
    (serving : pool.IsServing)
    (listsPaid : pool.books.ListsPaid pays)
    (names : NamesDiffer pays)
    (operation : Operation α)
    {worker : WorkerId}
    (busy : pool.IsBusy worker) :
    (pool.step operation).IsBusy worker ∨ worker ∈ pool.named operation := by
  cases operation with
  | pay => exact Or.inl busy
  | spend draw outpoint spender => exact pool.isBusy_spend draw outpoint spender busy
  | offer now job secret expiresAt =>
      obtain ⟨_, stepped⟩ := pool.step_offer now job secret expiresAt
      rw [stepped]
      exact Or.inl busy
  | assign waiting =>
      by_cases same : worker = waiting.worker
      · exact Or.inr (List.mem_singleton.mpr same)
      · exact Or.inl (serving.isBusy_assign listsPaid names same busy)
  | release released =>
      by_cases same : worker = released
      · exact Or.inr (List.mem_singleton.mpr same)
      · obtain ⟨id, has⟩ := busy
        exact Or.inl ⟨id, serving.board.hasWorker_release has same⟩
  | complete draw id solution =>
      rcases pool.step_complete_cases draw id solution with
        refused | ⟨settlement, next, completed, stepped⟩
      · rw [refused]
        exact Or.inl busy
      · rw [stepped]
        unfold named
        simp only [completed]
        exact serving.isBusy_complete listsPaid names completed busy
  | rearrange arrangement =>
      obtain ⟨id, has⟩ := busy
      exact Or.inl ⟨id, (serving.board.hasWorker_rearrange_iff arrangement id worker).mpr has⟩

end Steps

section Histories

variable {settings : PoolSettings α} {addresses : AddressBook}
  {history earlier since later : List (Operation α)}

/-- A history whose scripts were built and have names that differ, with
addresses that do not repeat themselves. -/
structure IsNamedRun
    (start : Pool α)
    (history : List (Operation α)) : Prop where
  built : ∀ script outpoint, Pays history script outpoint → script.IsBuilt
  addresses : (start.run history).books.addresses.NeverRepeats
  noCollision : ∀ script other outpoint otherOutpoint, Pays history script outpoint →
    Pays history other otherOutpoint → hash256 script.write = hash256 other.write →
    script.write = other.write

theorem IsNamedRun.names
    (isRun : start.IsNamedRun history) :
    NamesDiffer (Pays history) :=
  namesDiffer_of_built isRun.built isRun.noCollision

/-- What serves, and lists only scripts that are paid in a history, goes on doing
so. -/
theorem IsNamedRun.serves_step
    (isRun : start.IsNamedRun history)
    {operation : Operation α}
    (split : history = earlier ++ operation :: later)
    (serving : (start.run earlier).IsServing)
    (listsPaid : (start.run earlier).books.ListsPaid (Pays history)) :
    ((start.run earlier).step operation).IsServing ∧
      ((start.run earlier).step operation).books.ListsPaid (Pays history) := by
  have built script outpoint (isPaid : operation.Pays script outpoint) : script.IsBuilt :=
    isRun.built script outpoint (pays_of_split split script outpoint isPaid)
  have distinct := neverRepeats_of_split split isRun.addresses
  exact ⟨serving.step built distinct,
    serving.listsPaid_step listsPaid built (pays_of_split split) distinct⟩

/-- At any time the pool serves and lists only scripts that were paid. -/
theorem IsNamedRun.serves
    (isRun : (fresh settings addresses).IsNamedRun history)
    (split : history = earlier ++ later) :
    ((fresh settings addresses).run earlier).IsServing ∧
      ((fresh settings addresses).run earlier).books.ListsPaid (Pays history) := by
  induction earlier using List.reverseRecOn generalizing later with
  | nil =>
      exact ⟨isServing_fresh settings addresses,
        Books.listsPaid_empty _ addresses settings.costs⟩
  | append_singleton earlier operation inductionHypothesis =>
      rw [List.append_assoc, List.singleton_append] at split
      obtain ⟨serving, listsPaid⟩ := inductionHypothesis split
      rw [run_concat]
      exact isRun.serves_step split serving listsPaid

/-- A job is the same for as long as it stays on the board. -/
theorem IsNamedRun.job?_of_stays
    (isRun : (fresh settings addresses).IsNamedRun history)
    (split : history = earlier ++ since ++ later)
    {id : Digest}
    {job : Job}
    (tracked : ((fresh settings addresses).run earlier).board.job? id = some job)
    (stays : ∀ shorter, shorter <+: since →
      ((fresh settings addresses).run (earlier ++ shorter)).board.contains id = true) :
    ((fresh settings addresses).run (earlier ++ since)).board.job? id = some job := by
  induction since using List.reverseRecOn generalizing later with
  | nil =>
      rw [List.append_nil]
      exact tracked
  | append_singleton since operation inductionHypothesis =>
      have splitHere : history = earlier ++ since ++ operation :: later := by
        rw [split]
        simp
      have before := inductionHypothesis splitHere fun shorter isPrefix =>
        stays shorter (isPrefix.trans (List.prefix_append since [operation]))
      obtain ⟨serving, listsPaid⟩ := isRun.serves splitHere
      obtain ⟨entry, found⟩ := Option.isSome_iff_exists.mp (stays _ (List.prefix_refl _))
      have after := (WorkBoard.job?_eq_some_iff _ id entry.job).mpr ⟨entry, found, rfl⟩
      rw [← List.append_assoc, run_concat] at after ⊢
      rw [serving.job?_step listsPaid isRun.names before after] at after
      exact after

/-- A job in progress can be completed with what solves its puzzle. -/
theorem exists_complete
    {id : Digest}
    {job : Job}
    (tracked : pool.board.job? id = some job)
    {found : Solution}
    (valid : (WorkProof.mk job.puzzle found).isValid = true)
    (draw : α) :
    ∃ settlement next, pool.complete draw id (some found) = .ok (settlement, next) := by
  obtain ⟨completion, board, completed⟩ := WorkBoard.exists_complete tracked valid
  unfold complete
  rw [tracked]
  dsimp only
  rw [completed]
  exact ⟨_, _, rfl⟩

/-- Whether an assigned worker is on one job, which has the assigned puzzle, so
that for as long as the job stays on the board whatever solves that puzzle
completes it. -/
structure Settling.Employs
    (settling : start.Settling history)
    (assignment : Assignment)
    (id : Digest) : Prop where
  tracked : ∃ job, settling.next.board.job? id = some job ∧ job.puzzle = assignment.puzzle
  only : ∀ other, settling.next.board.HasWorker other assignment.worker ↔ other = id
  accepted : ∀ since, since <+: settling.later →
    (∀ shorter, shorter <+: since → (settling.next.run shorter).board.contains id = true) →
    ∀ draw found, (WorkProof.mk assignment.puzzle found).isValid = true →
      ∃ settlement next,
        (settling.next.run since).complete draw id (some found) = .ok (settlement, next)

/-- Whether a completion answers for the workers of the job it finishes, and
leaves all others where they are. -/
structure Settling.AnswersForWorkers (settling : start.Settling history) : Prop where
  shared :
    (settling.settlement.assignments.map Assignment.worker ++
        settling.settlement.idle.map Waiting.worker).Perm
      (((start.run settling.earlier).board.workers settling.id).map Waiting.worker)
  once :
    (settling.settlement.assignments.map Assignment.worker ++
      settling.settlement.idle.map Waiting.worker).Nodup
  assigned : ∀ assignment ∈ settling.settlement.assignments, ∃ id, settling.Employs assignment id
  idle : ∀ waiting ∈ settling.settlement.idle,
    waiting ∈ (start.run settling.earlier).board.workers settling.id ∧
      ¬settling.next.IsBusy waiting.worker
  others : ∀ id job, id ≠ settling.id →
    (start.run settling.earlier).board.job? id = some job →
    settling.next.board.job? id = some job ∧
      ∃ joined,
        settling.next.board.workers id =
            (start.run settling.earlier).board.workers id ++ joined ∧
          ∀ waiting ∈ joined,
            waiting ∈ (start.run settling.earlier).board.workers settling.id

/-- Whether a history neither loses nor doubles a worker. -/
structure KeepsWorkers
    (start : Pool α)
    (history : List (Operation α)) : Prop where
  kept : ∀ earlier operation later, history = earlier ++ operation :: later →
    ∀ worker, (start.run earlier).IsBusy worker →
      ((start.run earlier).step operation).IsBusy worker ∨
        worker ∈ (start.run earlier).named operation
  single : ∀ earlier, earlier <+: history → ∀ id other worker,
    (start.run earlier).board.HasWorker id worker →
    (start.run earlier).board.HasWorker other worker → id = other
  once : ∀ earlier, earlier <+: history → ∀ id,
    (((start.run earlier).board.workers id).map Waiting.worker).Nodup
  settled : ∀ settling : start.Settling history, settling.AnswersForWorkers

/-- The history goes on from where a completion leads. -/
theorem Settling.run_eq
    (settling : start.Settling history)
    (since : List (Operation α)) :
    start.run (settling.earlier ++
        [.complete settling.draw settling.id settling.solution] ++ since) =
      settling.next.run since := by
  rw [run_append, run_concat, step_of_completed settling.completed]

/-- What solves the puzzle of a job at the time of a completion completes that
job later, for as long as it stays on the board. -/
theorem IsNamedRun.exists_complete_later
    (isRun : (fresh settings addresses).IsNamedRun history)
    (settling : (fresh settings addresses).Settling history)
    {id : Digest}
    {job : Job}
    (tracked : settling.next.board.job? id = some job)
    (within : since <+: settling.later)
    (stays : ∀ shorter, shorter <+: since →
      (settling.next.run shorter).board.contains id = true)
    (draw : α)
    {found : Solution}
    (valid : (WorkProof.mk job.puzzle found).isValid = true) :
    ∃ settlement next,
      (settling.next.run since).complete draw id (some found) = .ok (settlement, next) := by
  obtain ⟨rest, isLater⟩ := within
  have here : ((fresh settings addresses).run (settling.earlier ++
      [.complete settling.draw settling.id settling.solution])).board.job? id = some job := by
    rw [run_concat, step_of_completed settling.completed]
    exact tracked
  have split : history = settling.earlier ++
      [.complete settling.draw settling.id settling.solution] ++ since ++ rest := by
    apply settling.split.trans
    rw [← isLater]
    simp
  have still := isRun.job?_of_stays split here fun shorter isPrefix => by
    rw [settling.run_eq]
    exact stays shorter isPrefix
  rw [settling.run_eq] at still
  exact exists_complete still valid draw

/-- In a history with names that differ a completion answers for its workers. -/
theorem IsNamedRun.answersForWorkers
    (isRun : (fresh settings addresses).IsNamedRun history)
    (settling : (fresh settings addresses).Settling history) :
    settling.AnswersForWorkers := by
  obtain ⟨serving, listsPaid⟩ := isRun.serves settling.split
  have nextSound := (serving.complete settling.completed).board
  have workersOnce := serving.board.nodup_workers settling.id
  obtain ⟨vacant, ⟨_, finished⟩, free, deals⟩ :=
    serving.deals_complete listsPaid isRun.names settling.completed
  refine ⟨deals.shared, deals.shared.nodup_iff.mpr workersOnce, ?_, ?_, ?_⟩
  · intro assignment present
    obtain ⟨id, job, tracked, puzzle, onJob⟩ := deals.assigned assignment present
    refine ⟨id, ⟨job, tracked, puzzle⟩, ?_, ?_⟩
    · intro other
      constructor
      · exact fun onOther => nextSound.exclusive other id assignment.worker onOther onJob
      · rintro rfl
        exact onJob
    · intro since within stays draw found valid
      rw [← puzzle] at valid
      exact isRun.exists_complete_later settling tracked within stays draw valid
  · intro waiting present
    exact ⟨deals.idle.subset present, deals.free_of_idle free workersOnce present⟩
  · intro id job different tracked
    obtain ⟨joined, isRow, fromWorkers, _⟩ := deals.joined id
    rw [WorkBoard.workers_complete finished, if_neg (Ne.symm different)] at isRow
    refine ⟨deals.kept id job ?_, joined, isRow, fun _ present => fromWorkers.subset present⟩
    rw [WorkBoard.job?_complete finished, if_neg (Ne.symm different)]
    exact tracked

/-- No history of scripts that were built, with names that do not collide and
addresses that are not handed out twice, loses or doubles a worker. -/
theorem run_keepsWorkers
    (settings : PoolSettings α)
    (addresses : AddressBook)
    (history : List (Operation α))
    (isRun : (fresh settings addresses).IsNamedRun history) :
    (fresh settings addresses).KeepsWorkers history where
  kept := by
    intro earlier operation later split worker busy
    obtain ⟨serving, listsPaid⟩ := isRun.serves split
    exact serving.isBusy_step listsPaid isRun.names operation busy
  single := by
    rintro earlier ⟨later, split⟩ id other worker onFirst onSecond
    exact (isRun.serves split.symm).1.board.exclusive id other worker onFirst onSecond
  once := by
    rintro earlier ⟨later, split⟩ id
    exact (isRun.serves split.symm).1.board.nodup_workers id
  settled := isRun.answersForWorkers

/-- The worker of the contract gets the bounty, and has nothing to do when that is
solved. -/
theorem run_keepsWorkers_bothSolved :
    (fresh PoolSettings.usual AddressBook.counting).IsNamedRun bothSolved ∧
      (((fresh PoolSettings.usual AddressBook.counting).run (bothSolved.take 5)).complete 0
          easyContract.id (some ⟨0, 0, 0, 0⟩)).toOption.bind (fun contract =>
        (contract.2.complete 0 easyBounty.id (some ⟨0, 0, 0, 0⟩)).toOption.map fun bounty =>
          (contract.1.assignments.map Assignment.worker, bounty.1.idle)) =
        some ([⟨7⟩], [⟨⟨7⟩, 1 / 1000000000000⟩]) ∧
      (fresh PoolSettings.usual AddressBook.counting).KeepsWorkers bothSolved := by
  have isRun : (fresh PoolSettings.usual AddressBook.counting).IsNamedRun bothSolved :=
    ⟨isChainRun_bothSolved.chain.built, isChainRun_bothSolved.addresses,
      isChainRun_bothSolved.noCollision⟩
  exact ⟨isRun, by decide +kernel,
    run_keepsWorkers PoolSettings.usual AddressBook.counting bothSolved isRun⟩

end Histories

end Pool
end WorkMarket
