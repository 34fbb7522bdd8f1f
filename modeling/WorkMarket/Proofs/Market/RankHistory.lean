import Mathlib.Data.List.DropRight
import WorkMarket.Proofs.Market.RankOrder

/-!
# What the history of a ranking says of its names

A history says without a ranking what should be ranked.  A name is ranked since
a bounty with a valid target was pushed under it, unless it was taken away
again; from then on every output of the name counts as an arrival, and the first
of them gives the figures.  `run_mirrors` says that the entry and the outputs a
ranking has for a name are those that the arrivals of the name make.
-/

namespace WorkMarket
namespace Ranking

namespace Operation

/-- Whether an operation ranks a name that is not ranked: it pushes a bounty with
a valid target. -/
def ranks
    (id : Digest) :
    Operation → Bool
  | .push output =>
      output.id = id && output.script.kind = .bounty && output.script.target.isValid
  | .addOutput _ | .remove _ => false

/-- The output that an operation notes with a name that is ranked. -/
def noted?
    (id : Digest) :
    Operation → Option Output
  | .push output => if output.id = id ∧ output.script.kind = .bounty then some output else none
  | .addOutput output => if output.id = id then some output else none
  | .remove _ => none

/-- Whether an operation takes a name away. -/
def removes
    (id : Digest) :
    Operation → Bool
  | .remove other => other = id
  | .push _ | .addOutput _ => false

/-- The ranked names in the order in which they were ranked, after one more
operation. -/
def enroll
    (names : List Digest) :
    Operation → List Digest
  | .push output =>
      if output.id ∉ names ∧ (push output).ranks output.id = true then names ++ [output.id]
      else names
  | .addOutput _ => names
  | .remove id => names.filter (· ≠ id)

/-- What ranks a name is a bounty with a valid target. -/
theorem ranks_iff
    {operation : Operation}
    {id : Digest} :
    operation.ranks id = true ↔
      ∃ output, operation = .push output ∧ output.id = id ∧ output.script.kind = .bounty ∧
        output.script.target.isValid = true := by
  cases operation <;> simp [ranks, and_assoc]

end Operation

/-- What happened since a name was last ranked, from the operation that ranked
it; nothing, if it was taken away since or never ranked. -/
def sinceRanked
    (history : List Operation)
    (id : Digest) :
    List Operation :=
  (history.rtakeWhile fun operation => !operation.removes id).dropWhile
    fun operation => !operation.ranks id

/-- The outputs of a name since it was last ranked, in order of arrival. -/
def arrivals
    (history : List Operation)
    (id : Digest) :
    List Output :=
  (sinceRanked history id).filterMap (Operation.noted? id)

/-- The names that are ranked, in the order in which they were. -/
def order
    (history : List Operation) :
    List Digest :=
  history.foldl Operation.enroll []

/-- The entry that the arrivals of a name make: the figures of the first. -/
def entryOf?
    {α : Type}
    [Scalar α] :
    List Output → Option (RankedBounty α)
  | [] => none
  | first :: _ =>
      match first.script.difficulty with
      | .error _ => none
      | .ok difficulty => some (RankedBounty.ofOutput first difficulty)

/-- What the arrivals of a name record: the outpoints of all, each where it first
came. -/
def recordOf?
    (outputs : List Output) :
    Option (List Outpoint) :=
  if outputs.isEmpty then none else some (outputs.map Output.outpoint).eraseDups

section Histories

variable {history : List Operation} {operation : Operation} {id : Digest}

theorem order_concat :
    order (history ++ [operation]) = operation.enroll (order history) := by
  simp [order]

theorem sinceRanked_concat :
    sinceRanked (history ++ [operation]) id =
      if operation.removes id then []
      else if sinceRanked history id = [] then
        if operation.ranks id then [operation] else []
      else sinceRanked history id ++ [operation] := by
  unfold sinceRanked
  rw [List.rtakeWhile_concat]
  cases operation.removes id with
  | true => rfl
  | false =>
      simp only [Bool.not_false, if_true, Bool.false_eq_true, if_false]
      rw [List.dropWhile_append]
      simp only [List.isEmpty_iff]
      split
      · cases ranked : operation.ranks id <;> simp [ranked]
      · rfl

/-- The first of the arrivals is the bounty that ranked the name. -/
theorem arrivals_cases
    (history : List Operation)
    (id : Digest) :
    (sinceRanked history id = [] ∧ arrivals history id = []) ∨
      (sinceRanked history id ≠ [] ∧ ∃ first rest difficulty, arrivals history id = first :: rest ∧
        first.id = id ∧ first.script.difficulty = .ok difficulty) := by
  cases since : sinceRanked history id with
  | nil => exact Or.inl ⟨rfl, by rw [arrivals, since]; rfl⟩
  | cons operation later =>
      have ranked : operation.ranks id = true := by
        have refused := List.head?_dropWhile_not (fun operation => !operation.ranks id)
          (history.rtakeWhile fun operation => !operation.removes id)
        rw [← sinceRanked, since] at refused
        simpa using refused
      obtain ⟨first, rfl, named, bounty, valid⟩ := Operation.ranks_iff.mp ranked
      have found := (Target.difficulty_eq_ok_iff _ _).mpr ⟨valid, rfl⟩
      refine Or.inr ⟨List.cons_ne_nil _ _, first, later.filterMap (Operation.noted? id), _, ?_,
        named, found⟩
      rw [arrivals, since, List.filterMap_cons_some]
      simp [Operation.noted?, named, bounty]

theorem arrivals_eq_nil_iff :
    arrivals history id = [] ↔ sinceRanked history id = [] := by
  rcases arrivals_cases history id with ⟨absent, none⟩ | ⟨ranked, first, rest, _, some, _⟩
  · simp [absent, none]
  · simp [ranked, some]

theorem arrivals_concat :
    arrivals (history ++ [operation]) id =
      if operation.removes id then []
      else if arrivals history id = [] then
        if operation.ranks id then (operation.noted? id).toList else []
      else arrivals history id ++ (operation.noted? id).toList := by
  have noted : [operation].filterMap (Operation.noted? id) = (operation.noted? id).toList := by
    cases found : operation.noted? id <;> simp [found]
  simp only [arrivals_eq_nil_iff]
  unfold arrivals
  rw [sinceRanked_concat, ← noted]
  split_ifs <;> simp

/-- A name has no new arrival from an operation that neither takes it away, ranks
it nor notes an output with it. -/
theorem arrivals_concat_of_idle
    (stays : operation.removes id = false)
    (unranked : operation.ranks id = false ∨ arrivals history id ≠ [])
    (silent : operation.noted? id = none ∨ arrivals history id = []) :
    arrivals (history ++ [operation]) id = arrivals history id := by
  rw [arrivals_concat, stays]
  by_cases none : arrivals history id = []
  · simp [none, unranked.resolve_right (not_not_intro none)]
  · simp [none, silent.resolve_right none]

/-- A name that is taken away has no arrivals; the others keep theirs. -/
theorem arrivals_concat_remove
    (history : List Operation)
    (id other : Digest) :
    arrivals (history ++ [.remove id]) other =
      if id = other then [] else arrivals history other := by
  rw [arrivals_concat]
  by_cases same : id = other <;>
    simp +contextual [Operation.removes, Operation.ranks, Operation.noted?, same]

end Histories

section Entries

variable {α : Type} [Scalar α]

/-- One arrival more changes none of the figures. -/
theorem entryOf?_concat
    {outputs : List Output}
    (nonempty : outputs ≠ [])
    (output : Output) :
    (entryOf? (outputs ++ [output]) : Option (RankedBounty α)) = entryOf? outputs := by
  cases outputs with
  | nil => contradiction
  | cons first rest => rfl

/-- One arrival more is one outpoint more, unless it is known. -/
theorem recordOf?_concat
    {outputs : List Output}
    (nonempty : outputs ≠ [])
    (output : Output) :
    recordOf? (outputs ++ [output]) =
      (recordOf? outputs).map fun outpoints => withOutpoint outpoints output.outpoint := by
  simp only [recordOf?, List.isEmpty_iff, List.append_eq_nil_iff, nonempty, false_and, if_false,
    Option.map_some, List.map_append, List.map_singleton, eraseDups_concat, withOutpoint,
    List.contains_iff_mem, List.mem_eraseDups]
  split <;> simp

theorem isSome_recordOf?
    (outputs : List Output) :
    (recordOf? outputs).isSome = true ↔ outputs ≠ [] := by
  cases outputs <;> simp [recordOf?]

theorem getD_recordOf?
    (outputs : List Output) :
    (recordOf? outputs).getD [] = (outputs.map Output.outpoint).eraseDups := by
  cases outputs <;> simp [recordOf?]

/-- What a ranking has of its history: the list and the map agree, every name has
the entry and the outputs that its arrivals make, and the names are those that the
history ranks. -/
structure Mirrors
    (ranking : Ranking α)
    (history : List Operation) : Prop where
  agrees : ranking.Agrees
  get?_eq : ∀ id, ranking.get? id = entryOf? (arrivals history id)
  recorded_get? : ∀ id, ranking.recorded.get? id = recordOf? (arrivals history id)
  enrolled : ∀ id, id ∈ order history ↔ ranking.contains id = true
  order_nodup : (order history).Nodup

variable {ranking : Ranking α} {history : List Operation}

theorem mirrors_empty :
    (empty : Ranking α).Mirrors [] where
  agrees := agrees_empty
  get?_eq := fun _ => rfl
  recorded_get? := fun _ => rfl
  enrolled := by simp [order, empty, contains, Keyed.contains]
  order_nodup := List.nodup_nil

theorem Mirrors.contains_iff
    (mirrors : ranking.Mirrors history)
    (id : Digest) :
    ranking.contains id = true ↔ arrivals history id ≠ [] := by
  rw [contains_eq_isSome, mirrors.recorded_get?, isSome_recordOf?]

theorem Mirrors.arrivals_eq_nil
    (mirrors : ranking.Mirrors history)
    {id : Digest}
    (unranked : ranking.contains id = false) :
    arrivals history id = [] := by
  by_contra ranked
  rw [(mirrors.contains_iff id).mpr ranked] at unranked
  contradiction

/-- An operation that the history takes no notice of may leave the ranking. -/
theorem Mirrors.concat_of_idle
    (mirrors : ranking.Mirrors history)
    {operation : Operation}
    (idle : ∀ id, arrivals (history ++ [operation]) id = arrivals history id)
    (enrolled : order (history ++ [operation]) = order history) :
    ranking.Mirrors (history ++ [operation]) where
  agrees := mirrors.agrees
  get?_eq := fun id => by rw [idle, mirrors.get?_eq]
  recorded_get? := fun id => by rw [idle, mirrors.recorded_get?]
  enrolled := fun id => by rw [enrolled, mirrors.enrolled]
  order_nodup := by
    rw [enrolled]
    exact mirrors.order_nodup

/-- An operation that only brings one more output of a ranked name notes it. -/
theorem Mirrors.addOutput
    (mirrors : ranking.Mirrors history)
    {operation : Operation}
    {output : Output}
    (ranked : ranking.contains output.id = true)
    (arrives : ∀ id, arrivals (history ++ [operation]) id =
      arrivals history id ++ if output.id = id then [output] else [])
    (enrolled : order (history ++ [operation]) = order history) :
    (ranking.addOutput output).2.Mirrors (history ++ [operation]) where
  agrees := mirrors.agrees.addOutput output
  get?_eq := by
    intro id
    rw [get?_addOutput, mirrors.get?_eq, arrives]
    by_cases same : output.id = id
    · subst same
      rw [if_pos rfl, entryOf?_concat ((mirrors.contains_iff _).mp ranked)]
    · rw [if_neg same, List.append_nil]
  recorded_get? := by
    intro id
    rw [recorded_get?_addOutput, mirrors.recorded_get?, arrives]
    by_cases same : output.id = id
    · subst same
      simp only [if_true]
      rw [recordOf?_concat ((mirrors.contains_iff _).mp ranked)]
    · simp [same, Ne.symm same]
  enrolled := fun id => by rw [enrolled, mirrors.enrolled, contains_addOutput]
  order_nodup := by
    rw [enrolled]
    exact mirrors.order_nodup

/-- A bounty that is not ranked is ranked as its own first arrival. -/
theorem Mirrors.rank
    (mirrors : ranking.Mirrors history)
    {next : Ranking α}
    {operation : Operation}
    {output : Output}
    {difficulty : Difficulty}
    (found : output.script.difficulty = .ok difficulty)
    (enters : ranking.Enters next (RankedBounty.ofOutput output difficulty) output.outpoint)
    (arrives : ∀ id, arrivals (history ++ [operation]) id =
      if output.id = id then [output] else arrivals history id)
    (enrolled : order (history ++ [operation]) = order history ++ [output.id]) :
    next.Mirrors (history ++ [operation]) where
  agrees := enters.agrees mirrors.agrees
  get?_eq := by
    intro id
    rw [enters.get?_eq mirrors.agrees, arrives]
    change (if output.id = id then _ else _) = _
    split
    · rw [entryOf?, found]
    · exact mirrors.get?_eq id
  recorded_get? := by
    intro id
    rw [enters.recorded_get?, arrives]
    change (if output.id = id then _ else _) = _
    split
    · simp [recordOf?, List.eraseDups_cons]
    · exact mirrors.recorded_get? id
  enrolled := by
    intro id
    rw [enrolled, List.mem_append, List.mem_singleton, mirrors.enrolled, enters.contains_eq,
      Bool.or_eq_true, decide_eq_true_eq, or_comm, eq_comm]
    rfl
  order_nodup := by
    have isNew : output.id ∉ order history := by
      rw [mirrors.enrolled]
      exact Bool.eq_false_iff.mp enters.unranked
    rw [enrolled]
    refine List.nodup_append.mpr ⟨mirrors.order_nodup, List.pairwise_singleton _ _, ?_⟩
    intro name present other isNewName same
    rw [List.mem_singleton.mp isNewName] at same
    exact isNew (same ▸ present)

theorem Mirrors.remove
    (mirrors : ranking.Mirrors history)
    (id : Digest) :
    (ranking.remove id).2.Mirrors (history ++ [.remove id]) where
  agrees := mirrors.agrees.remove id
  get?_eq := by
    intro other
    rw [mirrors.agrees.get?_remove, arrivals_concat_remove]
    split
    · rfl
    · exact mirrors.get?_eq other
  recorded_get? := by
    intro other
    rw [recorded_get?_remove, arrivals_concat_remove]
    split
    · rfl
    · exact mirrors.recorded_get? other
  enrolled := by
    intro other
    rw [order_concat, contains_remove]
    change other ∈ (order history).filter (· ≠ id) ↔ _
    rw [List.mem_filter, mirrors.enrolled]
    by_cases same : id = other
    · simp [same]
    · simp [same, Ne.symm same]
  order_nodup := by
    rw [order_concat]
    exact mirrors.order_nodup.filter _

/-- All that an operation can do to a ranking, with what its history then says:
nothing, note one more output of a ranked name, rank a bounty, or take a name
away. -/
inductive Change
    (ranking : Ranking α)
    (history : List Operation)
    (operation : Operation) : Prop
  | kept
      (same : ranking.step operation = ranking)
      (idle : ∀ id, arrivals (history ++ [operation]) id = arrivals history id)
      (enrolled : order (history ++ [operation]) = order history)
  | noted
      (output : Output)
      (known : ranking.contains output.id = true)
      (noted : ranking.step operation = (ranking.addOutput output).2)
      (arrives : ∀ id, arrivals (history ++ [operation]) id =
        arrivals history id ++ if output.id = id then [output] else [])
      (enrolled : order (history ++ [operation]) = order history)
  | ranked
      (output : Output)
      (difficulty : Difficulty)
      (found : output.script.difficulty = .ok difficulty)
      (enters : ranking.Enters (ranking.step operation) (RankedBounty.ofOutput output difficulty)
        output.outpoint)
      (arrives : ∀ id, arrivals (history ++ [operation]) id =
        if output.id = id then [output] else arrivals history id)
      (enrolled : order (history ++ [operation]) = order history ++ [output.id])
  | removed
      (id : Digest)
      (isRemoval : operation = .remove id)

/-- One more output of a ranked name arrives as the last. -/
theorem Mirrors.arrivals_of_known
    (mirrors : ranking.Mirrors history)
    {operation : Operation}
    {output : Output}
    (known : ranking.contains output.id = true)
    (stays : ∀ id, operation.removes id = false)
    (noted : ∀ id, operation.noted? id = if output.id = id then some output else none)
    (ranks : ∀ id, operation.ranks id = true → output.id = id)
    (id : Digest) :
    arrivals (history ++ [operation]) id =
      arrivals history id ++ if output.id = id then [output] else [] := by
  by_cases named : output.id = id
  · subst named
    have arrived := (mirrors.contains_iff output.id).mp known
    rw [arrivals_concat, stays, noted]
    simp [arrived]
  · rw [if_neg named, List.append_nil]
    refine arrivals_concat_of_idle (stays id) (Or.inl ?_) (Or.inl ?_)
    · exact Bool.eq_false_iff.mpr fun ranked => named (ranks id ranked)
    · rw [noted, if_neg named]

theorem Mirrors.change_push
    (mirrors : ranking.Mirrors history)
    (output : Output) :
    ranking.Change history (.push output) := by
  have removes (id : Digest) : (Operation.push output).removes id = false := rfl
  rcases ranking.push_cases output with
    ⟨other, same⟩ | ⟨bounty, known, noted⟩ | ⟨bounty, unranked, invalid, same⟩ |
      ⟨bounty, difficulty, found, enters⟩
  · refine .kept same (fun id => ?_) ?_
    · exact arrivals_concat_of_idle rfl (Or.inl (by simp [Operation.ranks, other]))
        (Or.inl (by simp [Operation.noted?, other]))
    · simp [order_concat, Operation.enroll, Operation.ranks, other]
  · refine .noted output known noted (mirrors.arrivals_of_known known removes ?_ ?_) ?_
    · simp [Operation.noted?, bounty]
    · simp +contextual [Operation.ranks]
    · rw [order_concat]
      exact if_neg fun isNew => isNew.1 ((mirrors.enrolled _).mpr known)
  · refine .kept same (fun id => ?_) ?_
    · by_cases named : output.id = id
      · subst named
        exact arrivals_concat_of_idle rfl (Or.inl (by simp [Operation.ranks, invalid]))
          (Or.inr (mirrors.arrivals_eq_nil unranked))
      · exact arrivals_concat_of_idle rfl (Or.inl (by simp [Operation.ranks, named]))
          (Or.inl (by simp [Operation.noted?, named]))
    · simp [order_concat, Operation.enroll, Operation.ranks, invalid]
  · have valid : output.script.target.isValid = true :=
      ((Target.difficulty_eq_ok_iff _ _).mp found).1
    have unranked : ranking.contains output.id = false := enters.unranked
    refine .ranked output difficulty found enters (fun id => ?_) ?_
    · by_cases named : output.id = id
      · subst named
        rw [arrivals_concat, mirrors.arrivals_eq_nil unranked]
        simp [Operation.removes, Operation.ranks, Operation.noted?, bounty, valid]
      · rw [if_neg named]
        exact arrivals_concat_of_idle rfl (Or.inl (by simp [Operation.ranks, named]))
          (Or.inl (by simp [Operation.noted?, named]))
    · rw [order_concat]
      refine if_pos ⟨?_, by simp [Operation.ranks, bounty, valid]⟩
      rw [mirrors.enrolled, unranked]
      exact Bool.false_ne_true

theorem Mirrors.change_addOutput
    (mirrors : ranking.Mirrors history)
    (output : Output) :
    ranking.Change history (.addOutput output) := by
  have enrolled : order (history ++ [.addOutput output]) = order history := order_concat
  cases known : ranking.contains output.id with
  | true =>
      refine .noted output known rfl (mirrors.arrivals_of_known known ?_ ?_ ?_) enrolled
      · exact fun _ => rfl
      · exact fun _ => rfl
      · exact fun _ ranked => absurd ranked Bool.false_ne_true
  | false =>
      refine .kept (by rw [step, addOutput_of_unranked known]) (fun id => ?_) enrolled
      refine arrivals_concat_of_idle rfl (Or.inl rfl) ?_
      by_cases named : output.id = id
      · exact Or.inr (named ▸ mirrors.arrivals_eq_nil known)
      · exact Or.inl (if_neg named)

/-- Every operation makes one of the changes. -/
theorem Mirrors.change
    (mirrors : ranking.Mirrors history)
    (operation : Operation) :
    ranking.Change history operation := by
  cases operation with
  | push output => exact mirrors.change_push output
  | addOutput output => exact mirrors.change_addOutput output
  | remove id => exact .removed id rfl

/-- One operation more keeps a ranking to its history. -/
theorem Mirrors.step
    (mirrors : ranking.Mirrors history)
    (operation : Operation) :
    (ranking.step operation).Mirrors (history ++ [operation]) := by
  cases mirrors.change operation with
  | kept same idle enrolled =>
      rw [same]
      exact mirrors.concat_of_idle idle enrolled
  | noted output known noted arrives enrolled =>
      rw [noted]
      exact mirrors.addOutput known arrives enrolled
  | ranked output difficulty found enters arrives enrolled =>
      exact mirrors.rank found enters arrives enrolled
  | removed id isRemoval =>
      subst isRemoval
      exact mirrors.remove id

theorem run_concat
    (ranking : Ranking α)
    (history : List Operation)
    (operation : Operation) :
    ranking.run (history ++ [operation]) = (ranking.run history).step operation := by
  simp [run]

/-- Whatever happened to a ranking, it has the entries and outputs that its history
makes. -/
theorem run_mirrors
    (history : List Operation) :
    ((empty : Ranking α).run history).Mirrors history := by
  induction history using List.reverseRecOn with
  | nil => exact mirrors_empty
  | append_singleton history operation inductionHypothesis =>
      rw [run_concat]
      exact inductionHypothesis.step operation

end Entries

end Ranking
end WorkMarket
