import WorkMarket.Proofs.Market.BoardRows
import WorkMarket.Proofs.Pool.Service

/-!
# What becomes of the workers of a finished job

Completing a job frees its workers and then asks for work for each in turn.
Each of them comes last on a job that the books offer, or stays free; nobody
else is moved.  Where names do not collide, the job that a worker is put on is
the one that the board has under the name, so it has the puzzle that the worker
is given.
-/

namespace WorkMarket
namespace Pool

section Definitions

variable {α : Type}

/-- Whether a worker is on some job. -/
def IsBusy
    (pool : Pool α)
    (worker : WorkerId) : Prop :=
  ∃ id, pool.board.HasWorker id worker

/-- What becomes of free workers for whom work is asked in turn: each of them is
assigned and comes last on a job with the assigned puzzle, or is idle; every
job in progress stays, with the workers it has. -/
structure Deals
    (pool : Pool α)
    (workers : List (Waiting α))
    (assignments : List Assignment)
    (idle : List (Waiting α))
    (next : Pool α) : Prop where
  shared : (assignments.map Assignment.worker ++ idle.map Waiting.worker).Perm
    (workers.map Waiting.worker)
  assigned : ∀ assignment ∈ assignments, ∃ id job, next.board.job? id = some job ∧
    job.puzzle = assignment.puzzle ∧ next.board.HasWorker id assignment.worker
  idle : idle.Sublist workers
  kept : ∀ id job, pool.board.job? id = some job → next.board.job? id = some job
  joined : ∀ id, ∃ joined, next.board.workers id = pool.board.workers id ++ joined ∧
    joined.Sublist workers ∧
    ∀ waiting ∈ joined, waiting.worker ∈ assignments.map Assignment.worker

variable {pool middle next : Pool α} {workers : List (Waiting α)} {worker : Waiting α}
  {assignments : List Assignment} {idle : List (Waiting α)} {id : Digest} {job : Job}

theorem deals_nil
    (pool : Pool α) :
    pool.Deals [] [] [] pool where
  shared := List.Perm.nil
  assigned := by simp
  idle := List.Sublist.slnil
  kept := fun _ _ tracked => tracked
  joined := fun _ => ⟨[], by simp⟩

/-- One worker more may stay idle. -/
theorem Deals.cons_idle
    (deals : pool.Deals workers assignments idle next)
    (worker : Waiting α) :
    pool.Deals (worker :: workers) assignments (worker :: idle) next where
  shared := List.perm_middle.trans (deals.shared.cons worker.worker)
  assigned := deals.assigned
  idle := deals.idle.cons_cons worker
  kept := deals.kept
  joined := by
    intro id
    obtain ⟨joined, workers, fromWorkers, named⟩ := deals.joined id
    exact ⟨joined, workers, fromWorkers.cons worker, named⟩

/-- Nobody leaves a job that goes on. -/
theorem Deals.hasWorker
    (deals : pool.Deals workers assignments idle next)
    {worker : WorkerId}
    (has : pool.board.HasWorker id worker) :
    next.board.HasWorker id worker := by
  rw [WorkBoard.hasWorker_iff_mem_workers] at has ⊢
  obtain ⟨joined, isRow, _⟩ := deals.joined id
  rw [isRow, List.map_append]
  exact List.mem_append_left _ has

/-- One worker more may be admitted to a job before. -/
theorem Deals.cons_assigned
    (admits : pool.board.Admits id job worker middle.board)
    (deals : middle.Deals workers assignments idle next) :
    pool.Deals (worker :: workers) (⟨worker.worker, job.puzzle⟩ :: assignments) idle next where
  shared := deals.shared.cons worker.worker
  assigned := by
    intro assignment present
    rcases List.mem_cons.mp present with rfl | later
    · have onJob := (admits.hasWorker_iff id worker.worker).mpr (Or.inr ⟨rfl, rfl⟩)
      exact ⟨id, job, deals.kept id job admits.tracked, rfl, deals.hasWorker onJob⟩
    · exact deals.assigned assignment later
  idle := deals.idle.cons worker
  kept := fun other earlier before => deals.kept other earlier (admits.kept other earlier before)
  joined := by
    intro other
    obtain ⟨joined, isRow, fromWorkers, named⟩ := deals.joined other
    rw [admits.workers_eq] at isRow
    by_cases same : id = other
    · rw [if_pos same] at isRow
      refine ⟨worker :: joined, by rw [isRow]; simp, fromWorkers.cons_cons worker, ?_⟩
      intro waiting present
      rcases List.mem_cons.mp present with rfl | later
      · exact List.mem_cons_self
      · exact List.mem_cons_of_mem _ (named waiting later)
    · rw [if_neg same, List.append_nil] at isRow
      exact ⟨joined, isRow, fromWorkers.cons worker, fun waiting present =>
        List.mem_cons_of_mem _ (named waiting present)⟩

/-- Who is idle is on no job. -/
theorem Deals.free_of_idle
    (deals : pool.Deals workers assignments idle next)
    (free : ∀ waiting ∈ workers, ¬pool.IsBusy waiting.worker)
    (once : (workers.map Waiting.worker).Nodup)
    {waiting : Waiting α}
    (present : waiting ∈ idle) :
    ¬next.IsBusy waiting.worker := by
  rintro ⟨id, has⟩
  rw [WorkBoard.hasWorker_iff_mem_workers] at has
  obtain ⟨joined, isRow, _, named⟩ := deals.joined id
  rw [isRow, List.map_append, List.mem_append] at has
  rcases has with before | later
  · exact free waiting (deals.idle.subset present)
      ⟨id, (pool.board.hasWorker_iff_mem_workers id waiting.worker).mpr before⟩
  · obtain ⟨other, inJoined, same⟩ := List.mem_map.mp later
    have apart := (List.nodup_append.mp (deals.shared.nodup_iff.mpr once)).2.2
    exact apart _ (named other inJoined) _ (List.mem_map_of_mem present) same

end Definitions

variable {α : Type} [Scalar α] {pool next : Pool α}
  {pays : LockingScript → Outpoint → Prop}

section Assignment

/-- A worker who is on no job leaves none. -/
theorem vacated_of_free
    (sound : pool.board.IsSound)
    {worker : WorkerId}
    (free : ¬pool.IsBusy worker) :
    pool.vacated worker = pool := by
  unfold vacated
  rw [sound.release_of_free fun id has => free ⟨id, has⟩]

/-- A worker who asks for work leaves its job, and then gets none or comes last on
a job whose puzzle is the answer. -/
theorem IsServing.admits_assign
    (serving : pool.IsServing)
    (listsPaid : pool.books.ListsPaid pays)
    (names : NamesDiffer pays)
    (worker : Waiting α) :
    pool.assign worker = (none, pool.vacated worker.worker) ∨
      ∃ id job next, pool.assign worker = (some ⟨worker.worker, job.puzzle⟩, next) ∧
        (pool.vacated worker.worker).board.Admits id job worker next.board := by
  obtain ⟨job, selected, assigned⟩ := pool.assign_cases worker
  rw [assigned]
  rcases (pool.vacated worker.worker).place_cases job worker with
    refused | ⟨valid, ⟨expected, accepted⟩, placed⟩
  · exact Or.inl refused
  · refine Or.inr ⟨job.id, job, _, placed, ?_⟩
    have free (id : Digest) : ¬(pool.vacated worker.worker).board.HasWorker id worker.worker :=
      serving.board.not_hasWorker_release worker.worker id
    have same : ((pool.vacated worker.worker).board.job? job.id).getD job = job := by
      cases tracked : (pool.vacated worker.worker).board.job? job.id with
      | none => rfl
      | some earlier =>
          have before := serving.offered _ _ (serving.board.job?_of_release tracked)
          exact serving.books.offers_unique listsPaid names before
            (serving.books.offers_of_selected selected valid)
    rcases WorkBoard.assign_of_free job free with refused | admits
    · exact absurd accepted (refused expected)
    · rw [same] at admits
      exact admits

/-- The workers of a finished job are dealt with in turn. -/
theorem IsServing.deals_reassign
    (serving : pool.IsServing)
    (listsPaid : pool.books.ListsPaid pays)
    (names : NamesDiffer pays)
    {workers : List (Waiting α)}
    (free : ∀ waiting ∈ workers, ¬pool.IsBusy waiting.worker)
    (once : (workers.map Waiting.worker).Nodup)
    (settlement : Settlement α) :
    ∃ assignments idle,
      (Pool.reassign workers settlement pool).1 =
        { settlement with
          assignments := settlement.assignments ++ assignments
          idle := settlement.idle ++ idle } ∧
      pool.Deals workers assignments idle (Pool.reassign workers settlement pool).2 := by
  -- The workers that are left are free in the next pool too, as they differ from the first.
  induction workers generalizing settlement pool with
  | nil => exact ⟨[], [], by simp [Pool.reassign], pool.deals_nil⟩
  | cons worker rest inductionHypothesis =>
      rw [List.map_cons, List.nodup_cons] at once
      have freeRest : ∀ waiting ∈ rest, ¬pool.IsBusy waiting.worker :=
        fun waiting present => free waiting (List.mem_cons_of_mem _ present)
      have cases := serving.admits_assign listsPaid names worker
      have nextServing := serving.assign worker
      have books := pool.books_assign worker
      rw [vacated_of_free serving.board (free worker List.mem_cons_self)] at cases
      unfold Pool.reassign
      rcases cases with refused | ⟨id, job, next, assigned, admits⟩
      · rw [refused]
        obtain ⟨assignments, idle, settled, deals⟩ := inductionHypothesis serving listsPaid
          freeRest once.2 { settlement with idle := settlement.idle ++ [worker] }
        refine ⟨assignments, worker :: idle, ?_, deals.cons_idle worker⟩
        rw [settled]
        simp
      · rw [assigned] at nextServing books ⊢
        have freeNext : ∀ waiting ∈ rest, ¬next.IsBusy waiting.worker := by
          rintro waiting present ⟨other, has⟩
          rcases (admits.hasWorker_iff other waiting.worker).mp has with before | ⟨_, same⟩
          · exact freeRest waiting present ⟨other, before⟩
          · exact once.1 (same ▸ List.mem_map_of_mem present)
        obtain ⟨assignments, idle, settled, deals⟩ := inductionHypothesis nextServing
          (books ▸ listsPaid) freeNext once.2
          { settlement with
            assignments := settlement.assignments ++ [⟨worker.worker, job.puzzle⟩] }
        refine ⟨⟨worker.worker, job.puzzle⟩ :: assignments, idle, ?_,
          Deals.cons_assigned admits deals⟩
        rw [settled]
        simp

end Assignment

section Completion

variable {draw : α} {id : Digest} {solution : Option Solution} {settlement : Settlement α}

/-- A completion takes the job off the board and deals with its workers, who are
free by then. -/
theorem IsServing.deals_complete
    (serving : pool.IsServing)
    (listsPaid : pool.books.ListsPaid pays)
    (names : NamesDiffer pays)
    (completed : pool.complete draw id solution = .ok (settlement, next)) :
    ∃ vacant : Pool α,
      (∃ completion, pool.board.complete id solution = .ok (completion, vacant.board)) ∧
      (∀ waiting ∈ pool.board.workers id, ¬vacant.IsBusy waiting.worker) ∧
      vacant.Deals (pool.board.workers id) settlement.assignments settlement.idle next := by
  obtain ⟨job, completion, board, tracked, finished, equal⟩ := complete_cases completed
  have workers := WorkBoard.workers_completion finished
  have free : ∀ waiting ∈ pool.board.workers id,
      ¬(pool.retired draw id job solution board).IsBusy waiting.worker := by
    rintro waiting present ⟨other, has⟩
    have wasThere := (pool.board.hasWorker_iff_mem_workers id waiting.worker).mpr
      (List.mem_map_of_mem present)
    exact serving.board.free_of_complete finished wasThere other has
  refine ⟨pool.retired draw id job solution board, ⟨completion, finished⟩, free, ?_⟩
  rw [workers] at equal
  obtain ⟨assignments, idle, settled, deals⟩ :=
    (serving.retired draw tracked finished).deals_reassign
      (listsPaid_retire listsPaid serving.books draw id job solution) names free
      (serving.board.nodup_workers id) (pool.settlementOf id job solution)
  rw [← equal] at settled deals
  obtain rfl : settlement = _ := settled
  exact deals

end Completion

end Pool
end WorkMarket
