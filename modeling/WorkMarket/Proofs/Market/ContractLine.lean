import WorkMarket.Proofs.Market.ContractJobs

/-!
# The line in which contracts are served

A history of the contract schedule says without a queue who stands in line.
Every accepted contract gets a ticket.  Taking the first serves its ticket,
taking a name drops all tickets of the name, and an output is noted on the first
ticket of its name.  `run_follows` says that the queue is what stands in line,
and that the selected job is always that of the first.
-/

namespace WorkMarket
namespace ContractSchedule

/-- What can be done to a schedule of contracts. -/
inductive Operation where
  | insert (contract : ContractJob)
  | addOutput (output : Output)
  | pop
  | remove (id : Digest)
  | finish (completed : Puzzle)

/-- The schedule after one more operation. -/
def step
    {α : Type}
    [Scalar α]
    (schedule : ContractSchedule α) :
    Operation → ContractSchedule α
  | .insert contract => schedule.insert contract
  | .addOutput output => (schedule.addOutput output).2
  | .pop => schedule.pop.2
  | .remove id => (schedule.remove id).2
  | .finish completed => schedule.finish completed

/-- The schedule after a history. -/
def run
    {α : Type}
    [Scalar α]
    (schedule : ContractSchedule α)
    (history : List Operation) :
    ContractSchedule α :=
  history.foldl step schedule

/-- The contracts that a history accepts, in order of acceptance. -/
def accepted
    (history : List Operation) :
    List ContractJob :=
  history.filterMap fun
    | .insert contract => if contract.isWorkable then some contract else none
    | _ => none

/-- The further outputs that a history brings for a name. -/
def toppedUp
    (history : List Operation)
    (id : Digest) :
    List Outpoint :=
  history.filterMap fun
    | .addOutput output => if output.id = id then some output.outpoint else none
    | _ => none

/-- A contract as it was accepted, with the outputs noted for it since. -/
structure Ticket where
  contract : ContractJob
  noted : List Outpoint

namespace Ticket

/-- The name of the contract. -/
def id
    (ticket : Ticket) :
    Digest :=
  ticket.contract.output.id

/-- The contract as it stands now. -/
def current
    (ticket : Ticket) :
    ContractJob :=
  ticket.noted.foldl ContractJob.addOutpoint ticket.contract

/-- Note another output. -/
def note
    (outpoint : Outpoint)
    (ticket : Ticket) :
    Ticket :=
  { ticket with noted := ticket.noted ++ [outpoint] }

@[simp] theorem contract_note
    (outpoint : Outpoint)
    (ticket : Ticket) :
    (ticket.note outpoint).contract = ticket.contract :=
  rfl

@[simp] theorem current_note
    (outpoint : Outpoint)
    (ticket : Ticket) :
    (ticket.note outpoint).current = ticket.current.addOutpoint outpoint := by
  simp [current, note]

/-- What was noted is all that a contract has beyond what it was accepted
with. -/
theorem exists_current_eq
    (ticket : Ticket) :
    ∃ more ⊆ ticket.noted, ticket.current =
      { ticket.contract with outpoints := ticket.contract.outpoints ++ more } := by
  obtain ⟨contract, noted⟩ := ticket
  induction noted using List.reverseRecOn with
  | nil => exact ⟨[], by simp, by simp [current]⟩
  | append_singleton noted outpoint inductionHypothesis =>
      obtain ⟨more, known, isCurrent⟩ := inductionHypothesis
      have noting : current ⟨contract, noted ++ [outpoint]⟩ =
          (current ⟨contract, noted⟩).addOutpoint outpoint :=
        current_note outpoint ⟨contract, noted⟩
      rw [noting, isCurrent, ContractJob.addOutpoint]
      split
      · exact ⟨more, List.subset_append_of_subset_left _ known, rfl⟩
      · refine ⟨more ++ [outpoint], ?_, by simp⟩
        exact List.append_subset.mpr
          ⟨List.subset_append_of_subset_left _ known, List.subset_append_right _ _⟩

@[simp] theorem output_current
    (ticket : Ticket) :
    ticket.current.output = ticket.contract.output := by
  obtain ⟨_, _, isCurrent⟩ := ticket.exists_current_eq
  rw [isCurrent]

/-- Noting outputs changes no job. -/
@[simp] theorem job_current
    (ticket : Ticket) :
    ticket.current.job = ticket.contract.job := by
  rw [ContractJob.job, ContractJob.job, output_current]

end Ticket

/-- What became of the tickets. -/
structure Line where
  /-- Those that stand in line, the first one first. -/
  waiting : List Ticket
  /-- Those that were taken as the first in line. -/
  served : List Ticket
  /-- Those that were taken by their name. -/
  dropped : List Ticket

namespace Line

/-- Nobody has come yet. -/
def empty : Line :=
  ⟨[], [], []⟩

/-- Take the first in line, if there is one. -/
def serve
    (line : Line) :
    Line :=
  ⟨line.waiting.drop 1, line.served ++ line.waiting.take 1, line.dropped⟩

/-- Whether a puzzle is that of the first in line. -/
def isSolvedBy
    (line : Line)
    (completed : Puzzle) :
    Bool :=
  line.waiting.head?.any fun first => first.contract.job.puzzle.equivalent completed

/-- The line after one more operation. -/
def step
    (line : Line) :
    Operation → Line
  | .insert contract =>
      if contract.isWorkable then { line with waiting := line.waiting ++ [⟨contract, []⟩] }
      else line
  | .addOutput output =>
      let first := line.waiting.findIdx fun ticket => ticket.id = output.id
      { line with waiting := line.waiting.modify first (Ticket.note output.outpoint) }
  | .pop => line.serve
  | .remove id =>
      { line with
        waiting := line.waiting.filter fun ticket => ticket.id ≠ id
        dropped := line.dropped ++ line.waiting.filter fun ticket => ticket.id = id }
  | .finish completed => if line.isSolvedBy completed then line.serve else line

end Line

/-- The line after a history. -/
def lineOf
    (history : List Operation) :
    Line :=
  history.foldl Line.step Line.empty

section Histories

variable {history : List Operation} {operation : Operation}

theorem lineOf_concat :
    lineOf (history ++ [operation]) = (lineOf history).step operation := by
  simp [lineOf]

theorem accepted_concat :
    accepted (history ++ [operation]) = accepted history ++ accepted [operation] := by
  simp only [accepted, List.filterMap_append]

theorem toppedUp_subset_concat
    (id : Digest) :
    toppedUp history id ⊆ toppedUp (history ++ [operation]) id := by
  simp only [toppedUp, List.filterMap_append]
  exact List.subset_append_left _ _

end Histories

namespace Line

/-- Whether the tickets of a line are those of the contracts that were accepted:
what was served and what still waits stand in order of acceptance, and whatever
is missing was taken by its name. -/
structure Accounts
    (line : Line)
    (history : List Operation) : Prop where
  inOrder : ((line.served ++ line.waiting).map Ticket.contract).Sublist (accepted history)
  accounted : ((line.served ++ line.waiting ++ line.dropped).map Ticket.contract).Perm
    (accepted history)
  noted : ∀ ticket ∈ line.waiting, ticket.noted ⊆ toppedUp history ticket.id
  dropped : ∀ ticket ∈ line.dropped, .remove ticket.id ∈ history
  workable : ∀ ticket ∈ line.waiting, ticket.contract.isWorkable = true

/-- Tickets keep their contracts when an output is noted on one of them. -/
theorem map_contract_modify
    (waiting : List Ticket)
    (place : Nat)
    (outpoint : Outpoint) :
    (waiting.modify place (Ticket.note outpoint)).map Ticket.contract =
      waiting.map Ticket.contract := by
  induction waiting generalizing place with
  | nil => simp
  | cons first rest inductionHypothesis =>
      cases place with
      | zero => simp
      | succ place => simp [inductionHypothesis]

/-- The ticket on which an output is noted is of the output's name. -/
theorem of_mem_modify_findIdx
    {waiting : List Ticket}
    {output : Output}
    {ticket : Ticket}
    (present : ticket ∈ waiting.modify
      (waiting.findIdx fun ticket => ticket.id = output.id) (Ticket.note output.outpoint)) :
    ticket ∈ waiting ∨ ∃ earlier ∈ waiting, earlier.id = output.id ∧
      ticket = earlier.note output.outpoint := by
  induction waiting with
  | nil => simp at present
  | cons first rest inductionHypothesis =>
      by_cases named : first.id = output.id
      · rw [List.findIdx_cons, decide_eq_true named, cond_true, List.modify_zero_cons,
          List.mem_cons] at present
        rcases present with rfl | inRest
        · exact Or.inr ⟨first, List.mem_cons_self, named, rfl⟩
        · exact Or.inl (List.mem_cons_of_mem _ inRest)
      · rw [List.findIdx_cons, decide_eq_false named, cond_false, List.modify_succ_cons,
          List.mem_cons] at present
        rcases present with rfl | inRest
        · exact Or.inl List.mem_cons_self
        · rcases inductionHypothesis inRest with kept | ⟨earlier, before, same, noted⟩
          · exact Or.inl (List.mem_cons_of_mem _ kept)
          · exact Or.inr ⟨earlier, List.mem_cons_of_mem _ before, same, noted⟩

variable {line : Line} {history : List Operation}

/-- An operation that accepts nothing may be added to the history. -/
theorem Accounts.concat
    (accounts : line.Accounts history)
    (operation : Operation)
    (acceptsNothing : accepted [operation] = []) :
    line.Accounts (history ++ [operation]) := by
  have same : accepted (history ++ [operation]) = accepted history := by
    rw [accepted_concat, acceptsNothing, List.append_nil]
  exact
    { inOrder := same ▸ accounts.inOrder
      accounted := same ▸ accounts.accounted
      noted := fun ticket present =>
        List.Subset.trans (accounts.noted ticket present) (toppedUp_subset_concat ticket.id)
      dropped := fun ticket present =>
        List.mem_append_left _ (accounts.dropped ticket present)
      workable := accounts.workable }

/-- Serving moves the first in line behind those served before. -/
theorem Accounts.serve
    (accounts : line.Accounts history) :
    line.serve.Accounts history := by
  have same : line.serve.served ++ line.serve.waiting = line.served ++ line.waiting := by
    rw [Line.serve, List.append_assoc, List.take_append_drop]
  exact
    { inOrder := same ▸ accounts.inOrder
      accounted := same ▸ accounts.accounted
      noted := fun ticket present => accounts.noted ticket (List.mem_of_mem_drop present)
      dropped := accounts.dropped
      workable := fun ticket present => accounts.workable ticket (List.mem_of_mem_drop present) }

theorem Accounts.accept
    (accounts : line.Accounts history)
    {contract : ContractJob}
    (workable : contract.isWorkable = true) :
    Accounts { line with waiting := line.waiting ++ [⟨contract, []⟩] }
      (history ++ [.insert contract]) := by
  have accepts : accepted (history ++ [.insert contract]) = accepted history ++ [contract] := by
    rw [accepted_concat]
    simp [accepted, workable]
  refine
    { inOrder := ?_
      accounted := ?_
      noted := ?_
      dropped := fun ticket present => List.mem_append_left _ (accounts.dropped ticket present)
      workable := ?_ }
  · rw [accepts, ← List.append_assoc, List.map_append]
    exact accounts.inOrder.append (List.Sublist.refl _)
  · rw [accepts]
    refine List.Perm.trans ?_ (accounts.accounted.append_right [contract])
    simp only [List.map_append, List.map_cons, List.map_nil, List.append_assoc]
    exact (List.Perm.append_left _ (List.Perm.append_left _ List.perm_append_comm))
  · intro ticket present
    rcases List.mem_append.mp present with before | isNew
    · exact List.Subset.trans (accounts.noted ticket before) (toppedUp_subset_concat ticket.id)
    · rw [List.mem_singleton.mp isNew]
      exact List.nil_subset _
  · intro ticket present
    rcases List.mem_append.mp present with before | isNew
    · exact accounts.workable ticket before
    · rw [List.mem_singleton.mp isNew]
      exact workable

theorem Accounts.topUp
    (accounts : line.Accounts history)
    (output : Output) :
    (line.step (.addOutput output)).Accounts (history ++ [.addOutput output]) := by
  have before := accounts.concat (.addOutput output) rfl
  have contracts := map_contract_modify line.waiting
    (line.waiting.findIdx fun ticket => ticket.id = output.id) output.outpoint
  refine
    { inOrder := ?_
      accounted := ?_
      noted := ?_
      dropped := before.dropped
      workable := ?_ }
  · have inOrder := before.inOrder
    rw [List.map_append] at inOrder ⊢
    rwa [Line.step, contracts]
  · have accounted := before.accounted
    rw [List.map_append, List.map_append] at accounted ⊢
    rwa [Line.step, contracts]
  · intro ticket present
    rcases of_mem_modify_findIdx present with kept | ⟨earlier, standing, named, rfl⟩
    · exact before.noted ticket kept
    · refine List.append_subset.mpr ⟨before.noted earlier standing, ?_⟩
      intro outpoint isNoted
      rw [List.mem_singleton.mp isNoted]
      change output.outpoint ∈ toppedUp _ earlier.id
      simp [toppedUp, named]
  · intro ticket present
    rcases of_mem_modify_findIdx present with kept | ⟨earlier, standing, _, rfl⟩
    · exact accounts.workable ticket kept
    · exact accounts.workable earlier standing

theorem Accounts.drop
    (accounts : line.Accounts history)
    (id : Digest) :
    (line.step (.remove id)).Accounts (history ++ [.remove id]) := by
  have before := accounts.concat (.remove id) rfl
  refine
    { inOrder := ?_
      accounted := ?_
      noted := fun ticket present => before.noted ticket (List.mem_filter.mp present).1
      dropped := ?_
      workable := fun ticket present => accounts.workable ticket (List.mem_filter.mp present).1 }
  · refine List.Sublist.trans (List.Sublist.map _ ?_) before.inOrder
    exact (List.Sublist.refl _).append List.filter_sublist
  · refine List.Perm.trans (List.Perm.map _ ?_) before.accounted
    -- What is kept and what is dropped make up what stood in line.
    have split := List.filter_append_perm (fun ticket : Ticket => decide (ticket.id ≠ id))
      line.waiting
    simp only [ne_eq, decide_not, Bool.not_not] at split
    simp only [Line.step, ne_eq, decide_not, List.append_assoc]
    refine List.Perm.append_left _ ?_
    refine List.Perm.trans (List.Perm.append_left _ List.perm_append_comm) ?_
    rw [← List.append_assoc]
    exact split.append_right line.dropped
  · intro ticket present
    rcases List.mem_append.mp present with earlier | isDropped
    · exact before.dropped ticket earlier
    · have named : ticket.id = id := by simpa using (List.mem_filter.mp isDropped).2
      simp [named]

/-- One operation more keeps the account of the tickets. -/
theorem Accounts.step
    (accounts : line.Accounts history)
    (operation : Operation) :
    (line.step operation).Accounts (history ++ [operation]) := by
  cases operation with
  | insert contract =>
      by_cases workable : contract.isWorkable = true
      · rw [Line.step, if_pos workable]
        exact accounts.accept workable
      · rw [Line.step, if_neg workable]
        exact accounts.concat _ (by simp [accepted, workable])
  | addOutput output => exact accounts.topUp output
  | pop => exact (accounts.concat .pop rfl).serve
  | remove id => exact accounts.drop id
  | finish completed =>
      have before := accounts.concat (.finish completed) rfl
      by_cases solved : line.isSolvedBy completed = true
      · rw [Line.step, if_pos solved]
        exact before.serve
      · rw [Line.step, if_neg solved]
        exact before

end Line

/-- A line accounts for its history. -/
theorem lineOf_accounts
    (history : List Operation) :
    (lineOf history).Accounts history := by
  induction history using List.reverseRecOn with
  | nil =>
      exact
        { inOrder := List.Sublist.refl _
          accounted := List.Perm.refl _
          noted := by simp [lineOf, Line.empty]
          dropped := by simp [lineOf, Line.empty]
          workable := by simp [lineOf, Line.empty] }
  | append_singleton history operation inductionHypothesis =>
      rw [lineOf_concat]
      exact inductionHypothesis.step operation

/-- A contract that can be worked on gives a job that can. -/
theorem isValid_job_of_isWorkable
    {contract : ContractJob}
    (workable : contract.isWorkable = true) :
    contract.job.isValid = true := by
  simp only [ContractJob.isWorkable, Bool.and_eq_true, decide_eq_true_eq] at workable
  obtain ⟨⟨_, bound⟩, target⟩ := workable
  have suited : Job.IsFor contract.output.script contract.output.script.minerAddress :=
    ⟨by rw [LockingScript.isValid, bound]; rfl, fun _ => rfl⟩
  rw [ContractJob.job, Job.isValid_ofScript suited, target]

section Schedules

variable {α : Type} {schedule : ContractSchedule α} {line : Line}

/-- Whether a schedule queues what stands in line and selects the job of the
first. -/
structure Mirrors
    (schedule : ContractSchedule α)
    (line : Line) : Prop where
  queued : schedule.queue.jobs = line.waiting.map Ticket.current
  selected : schedule.selected =
    (schedule.queue.front?.map ContractJob.job).getD Job.absent

/-- Nothing is selected if nobody waits; otherwise the first in line is, and can
be worked on. -/
theorem Mirrors.selected_cases
    (mirrors : schedule.Mirrors line)
    (workable : ∀ ticket ∈ line.waiting, ticket.contract.isWorkable = true) :
    (line.waiting = [] ∧ schedule.queue.jobs = [] ∧ schedule.selected = Job.absent) ∨
      ∃ first rest, line.waiting = first :: rest ∧
        schedule.queue.jobs = first.current :: rest.map Ticket.current ∧
        schedule.selected = first.contract.job ∧ schedule.selected.isValid = true := by
  have queued := mirrors.queued
  have selected := mirrors.selected
  rw [ContractQueue.front?] at selected
  cases waiting : line.waiting with
  | nil =>
      rw [waiting, List.map_nil] at queued
      exact Or.inl ⟨rfl, queued, by rw [selected, queued]; rfl⟩
  | cons first rest =>
      rw [waiting, List.map_cons] at queued
      have isSelected : schedule.selected = first.contract.job := by
        rw [selected, queued, ← first.job_current]
        rfl
      have canWork := workable first (waiting ▸ List.mem_cons_self)
      exact Or.inr ⟨first, rest, rfl, queued, isSelected,
        isSelected ▸ isValid_job_of_isWorkable canWork⟩

/-- The selected job can be worked on exactly if somebody waits. -/
theorem Mirrors.selected_isValid_iff
    (mirrors : schedule.Mirrors line)
    (workable : ∀ ticket ∈ line.waiting, ticket.contract.isWorkable = true) :
    schedule.selected.isValid = true ↔ schedule.queue.jobs ≠ [] := by
  rcases mirrors.selected_cases workable with
    ⟨_, jobs, absent⟩ | ⟨first, rest, _, jobs, _, valid⟩
  · rw [absent, jobs]
    exact ⟨fun valid => by contradiction, fun waits => absurd rfl waits⟩
  · rw [jobs]
    exact ⟨fun _ => List.cons_ne_nil _ _, fun _ => valid⟩

/-- Noting an output with the first of its name notes it on the first ticket. -/
theorem addToFirst_map_current
    (output : Output)
    (waiting : List Ticket) :
    ContractQueue.addToFirst output (waiting.map Ticket.current) =
      (waiting.modify (waiting.findIdx fun ticket => ticket.id = output.id)
        (Ticket.note output.outpoint)).map Ticket.current := by
  induction waiting with
  | nil => rfl
  | cons first rest inductionHypothesis =>
      rw [List.map_cons, ContractQueue.addToFirst, Ticket.output_current, List.findIdx_cons]
      by_cases named : first.contract.output.id = output.id
      · have found : decide (first.id = output.id) = true := decide_eq_true named
        rw [if_pos named, found, cond_true, List.modify_zero_cons, List.map_cons,
          Ticket.current_note]
      · have other : decide (first.id = output.id) = false := decide_eq_false named
        rw [if_neg named, other, cond_false, List.modify_succ_cons, List.map_cons,
          inductionHypothesis]

theorem Mirrors.addOutput
    (mirrors : schedule.Mirrors line)
    (output : Output) :
    (schedule.addOutput output).2.Mirrors (line.step (.addOutput output)) := by
  constructor
  · change ContractQueue.addToFirst output schedule.queue.jobs = _
    rw [mirrors.queued, addToFirst_map_current]
    rfl
  · rw [front?_addOutput]
    exact mirrors.selected

variable [Scalar α]

theorem Mirrors.insert
    (mirrors : schedule.Mirrors line)
    (workable : ∀ ticket ∈ line.waiting, ticket.contract.isWorkable = true)
    (contract : ContractJob) :
    (schedule.insert contract).Mirrors (line.step (.insert contract)) := by
  constructor
  · rw [queue_insert, ContractQueue.push, Line.step]
    split
    · simp [mirrors.queued, Ticket.current]
    · exact mirrors.queued
  · unfold ContractSchedule.insert
    dsimp only
    split
    · rename_i valid
      -- What is selected is the job at the front, which stays there.
      rcases mirrors.selected_cases workable with
        ⟨_, _, absent⟩ | ⟨first, rest, _, jobs, selected, _⟩
      · rw [absent] at valid
        contradiction
      · have front : schedule.queue.front? = some first.current := by
          rw [ContractQueue.front?, jobs, List.head?_cons]
        rw [ContractQueue.front?_push front, selected, ← first.job_current]
        rfl
    · rfl

/-- Taking the first serves its ticket. -/
theorem Mirrors.pop
    (mirrors : schedule.Mirrors line) :
    schedule.pop.2.Mirrors line.serve := by
  refine ⟨?_, rfl⟩
  change schedule.queue.pop.2.jobs = _
  rw [ContractQueue.jobs_pop, mirrors.queued, ← List.map_tail, Line.serve, List.drop_one]

theorem Mirrors.remove
    (mirrors : schedule.Mirrors line)
    (id : Digest) :
    (schedule.remove id).2.Mirrors (line.step (.remove id)) := by
  refine ⟨?_, rfl⟩
  change (schedule.queue.remove id).2.jobs = _
  rw [ContractQueue.jobs_remove, mirrors.queued, List.filter_map, Line.step]
  congr 2
  funext ticket
  exact congrArg (fun output : Output => decide (output.id ≠ id)) ticket.output_current

/-- Only the puzzle of the first in line finishes anything, and it serves the
first. -/
theorem Mirrors.finish_eq
    (mirrors : schedule.Mirrors line)
    (workable : ∀ ticket ∈ line.waiting, ticket.contract.isWorkable = true)
    (completed : Puzzle) :
    schedule.finish completed =
      if line.isSolvedBy completed then schedule.pop.2 else schedule := by
  unfold ContractSchedule.finish Line.isSolvedBy
  rcases mirrors.selected_cases workable with
    ⟨waiting, _, absent⟩ | ⟨first, rest, waiting, _, selected, valid⟩
  · rw [waiting, absent]
    rfl
  · rw [waiting, List.head?_cons, Option.any_some, ← selected]
    simp only [valid, true_and]

/-- One operation more keeps what is queued the line. -/
theorem Mirrors.step
    (mirrors : schedule.Mirrors line)
    (workable : ∀ ticket ∈ line.waiting, ticket.contract.isWorkable = true)
    (operation : Operation) :
    (schedule.step operation).Mirrors (line.step operation) := by
  cases operation with
  | insert contract => exact mirrors.insert workable contract
  | addOutput output => exact mirrors.addOutput output
  | pop => exact mirrors.pop
  | remove id => exact mirrors.remove id
  | finish completed =>
      rw [ContractSchedule.step, Line.step, mirrors.finish_eq workable]
      split
      · exact mirrors.pop
      · exact mirrors

theorem run_mirrors_lineOf
    (history : List Operation) :
    ((empty : ContractSchedule α).run history).Mirrors (lineOf history) := by
  induction history using List.reverseRecOn with
  | nil => exact ⟨rfl, rfl⟩
  | append_singleton history operation inductionHypothesis =>
      rw [lineOf_concat, run, List.foldl_append]
      exact inductionHypothesis.step (lineOf_accounts history).workable operation

/-- What is read off a schedule is what its history says.  The queue is the
accepted contracts in order of acceptance, without those that were served as the
first in line and those that were dropped by their name; each has the outputs it
came with and then such as the history brought for its name.  The selected job
is that of the first contract, which alone is taken and handed to workers. -/
structure Follows
    (schedule : ContractSchedule α)
    (history : List Operation) : Prop where
  queued : schedule.queue.jobs = (lineOf history).waiting.map Ticket.current
  inOrder : (((lineOf history).served ++ (lineOf history).waiting).map Ticket.contract).Sublist
    (accepted history)
  accounted : (((lineOf history).served ++ (lineOf history).waiting ++
    (lineOf history).dropped).map Ticket.contract).Perm (accepted history)
  dropped : ∀ ticket ∈ (lineOf history).dropped, .remove ticket.id ∈ history
  extended : ∀ ticket ∈ (lineOf history).waiting, ∃ more ⊆ toppedUp history ticket.id,
    ticket.current =
      { ticket.contract with outpoints := ticket.contract.outpoints ++ more }
  selected : schedule.selected =
    (schedule.queue.front?.map ContractJob.job).getD Job.absent
  selected_isValid_iff : schedule.selected.isValid = true ↔ schedule.queue.jobs ≠ []
  popped : schedule.pop.1 = schedule.queue.jobs.head? ∧
    schedule.pop.2.queue.jobs = schedule.queue.jobs.tail
  finished : ∀ completed, (schedule.finish completed).queue.jobs =
    if schedule.selected.puzzle.equivalent completed then schedule.queue.jobs.tail
    else schedule.queue.jobs
  assigned : ∀ first ∈ schedule.queue.front?, ∀ waiting, schedule.assign waiting =
    waiting.map fun worker => ⟨worker.worker, first.job.puzzle⟩
  idle : schedule.queue.jobs = [] → ∀ waiting, schedule.assign waiting = []

/-- Whatever happened to an empty schedule, it follows its history. -/
theorem run_follows
    (history : List Operation) :
    ((empty : ContractSchedule α).run history).Follows history := by
  have accounts := lineOf_accounts history
  have mirrors := run_mirrors_lineOf (α := α) history
  generalize (empty : ContractSchedule α).run history = schedule at mirrors
  have cases := mirrors.selected_cases accounts.workable
  refine
    { queued := mirrors.queued
      inOrder := accounts.inOrder
      accounted := accounts.accounted
      dropped := accounts.dropped
      extended := ?_
      selected := mirrors.selected
      selected_isValid_iff := mirrors.selected_isValid_iff accounts.workable
      popped := ⟨?_, schedule.queue.jobs_pop⟩
      finished := ?_
      assigned := ?_
      idle := ?_ }
  · intro ticket present
    obtain ⟨more, known, isCurrent⟩ := ticket.exists_current_eq
    exact ⟨more, List.Subset.trans known (accounts.noted ticket present), isCurrent⟩
  · change schedule.queue.pop.1 = _
    unfold ContractQueue.pop
    split <;> simp [*]
  · intro completed
    rcases cases with ⟨_, jobs, absent⟩ | ⟨first, rest, _, jobs, _, valid⟩
    · have unchanged : schedule.finish completed = schedule := by
        rw [ContractSchedule.finish, if_neg]
        rintro ⟨valid, _⟩
        rw [absent] at valid
        contradiction
      rw [unchanged, jobs]
      split <;> rfl
    · unfold ContractSchedule.finish
      simp only [valid, true_and]
      split
      · exact schedule.queue.jobs_pop
      · rfl
  · intro first isFront waiting
    rcases cases with ⟨_, jobs, _⟩ | ⟨ticket, rest, _, jobs, selected, valid⟩
    · rw [ContractQueue.front?, jobs] at isFront
      contradiction
    · rw [ContractQueue.front?, jobs] at isFront
      obtain rfl := Option.some.inj isFront
      rw [ContractSchedule.assign, Job.assignAll, if_pos valid, selected, Ticket.job_current]
  · intro nobody waiting
    rcases cases with ⟨_, _, absent⟩ | ⟨_, _, _, jobs, _⟩
    · rw [ContractSchedule.assign, absent]
      rfl
    · rw [jobs] at nobody
      contradiction

end Schedules

end ContractSchedule
end WorkMarket
