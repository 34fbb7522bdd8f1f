import WorkMarket.Script.Cursor

/-!
# Running a template step by step

A cursor between what was taken and what is left determines what each matcher
does.  The lemmas here say so for one matcher at a time; `bind_eq` joins them,
so that a template runs by rewriting.
-/

namespace WorkMarket

namespace Cursor

/-- The cursor behind `taken` and before `rest`. -/
def between
    (taken rest : Program) :
    Cursor :=
  ⟨taken ++ rest, taken.length⟩

theorem start_eq_between
    (program : Program) :
    start program = between [] program :=
  rfl

theorem next?_between
    (taken rest : Program) :
    (between taken rest).next? = rest.head? := by
  unfold next? between
  rw [List.getElem?_append_right (Nat.le_refl _), Nat.sub_self, List.head?_eq_getElem?]

/-- Advancing over a run moves it from what is left to what was taken. -/
theorem advance_between
    (taken run rest : Program) :
    (between taken (run ++ rest)).advance run.length = between (taken ++ run) rest := by
  simp [advance, between]

end Cursor

namespace Matcher

open Cursor (between)

variable {α β : Type}

/-- After a success the next matcher goes on where the first one stopped. -/
theorem bind_eq
    {first : Matcher α}
    {start finish : Cursor}
    {found : α}
    (succeeds : first start = (some found, finish))
    (next : α → Matcher β) :
    (first >>= next) start = next found finish := by
  simp only [Bind.bind, OptionT.bind, OptionT.mk, StateT.bind, succeeds]

/-- A chain of matchers succeeds only if the first one does and the others do
from where it stopped. -/
theorem exists_of_bind_eq
    {first : Matcher α}
    {next : α → Matcher β}
    {start finish : Cursor}
    {found : β}
    (succeeds : (first >>= next) start = (some found, finish)) :
    ∃ middle place, first start = (some middle, place) ∧
      next middle place = (some found, finish) := by
  simp only [Bind.bind, OptionT.bind, OptionT.mk, StateT.bind] at succeeds
  cases answered : first start with
  | mk answer place =>
      rw [answered] at succeeds
      cases answer with
      | none => cases succeeds
      | some middle => exact ⟨middle, place, rfl, succeeds⟩

/-- The second of two alternatives is tried where the first one left the
cursor. -/
theorem orElse_apply
    (first second : Matcher α)
    (start : Cursor) :
    (first <|> second) start =
      match first start with
      | (some found, finish) => (some found, finish)
      | (none, finish) => second finish := by
  change OptionT.orElse first (fun _ => second) start = _
  delta OptionT.orElse
  simp only [OptionT.mk, Bind.bind, StateT.bind]
  rcases first start with ⟨_ | found, finish⟩
  · rfl
  · rfl

/-- What the first of two alternatives takes is taken. -/
theorem orElse_eq_of_left
    {first second : Matcher α}
    {start finish : Cursor}
    {found : α}
    (succeeds : first start = (some found, finish)) :
    (first <|> second) start = (some found, finish) := by
  rw [orElse_apply, succeeds]

/-- Where the first of two alternatives does not fit, the second one is tried
in the same place. -/
theorem orElse_eq_of_right
    {first second : Matcher α}
    {start : Cursor}
    (fails : first start = (none, start)) :
    (first <|> second) start = second start := by
  rw [orElse_apply, fails]

/-- What two alternatives take, one of them took. -/
theorem of_orElse_eq
    {first second : Matcher α}
    {start finish : Cursor}
    {found : α}
    (succeeds : (first <|> second) start = (some found, finish)) :
    first start = (some found, finish) ∨
      ∃ place, first start = (none, place) ∧ second place = (some found, finish) := by
  rw [orElse_apply] at succeeds
  split at succeeds
  · rename_i answered
    exact Or.inl (answered.trans succeeds)
  · rename_i place refused
    exact Or.inr ⟨place, refused, succeeds⟩

/-- A push whose data is acceptable is taken. -/
theorem pushWhere_between
    {accepts : Bytes → Bool}
    (taken rest : Program)
    (data : Bytes)
    (accepted : accepts data = true) :
    pushWhere accepts (between taken (.push data :: rest)) =
      (some data, between (taken ++ [.push data]) rest) := by
  unfold pushWhere
  rw [Cursor.next?_between]
  simp only [List.head?_cons, accepted, if_true]
  rw [← Cursor.advance_between]
  rfl

/-- A push whose data is not acceptable stays. -/
theorem pushWhere_between_of_not
    {accepts : Bytes → Bool}
    (taken rest : Program)
    (data : Bytes)
    (refused : accepts data = false) :
    pushWhere accepts (between taken (.push data :: rest)) =
      (none, between taken (.push data :: rest)) := by
  unfold pushWhere
  rw [Cursor.next?_between]
  simp [refused]

/-- A push that is not taken stays. -/
theorem pushWhere_of_none
    {accepts : Bytes → Bool}
    {start finish : Cursor}
    (fails : pushWhere accepts start = (none, finish)) :
    finish = start := by
  unfold pushWhere at fails
  split at fails
  · split at fails
    · cases fails
    · exact (congrArg Prod.snd fails).symm
  · exact (congrArg Prod.snd fails).symm

theorem push_between
    (taken rest : Program)
    (data : Bytes) :
    push (between taken (.push data :: rest)) =
      (some data, between (taken ++ [.push data]) rest) :=
  pushWhere_between taken rest data rfl

theorem pushOfSize_between
    (size : Nat)
    (data : Bytes)
    (fits : data.length = size)
    (taken rest : Program) :
    pushOfSize size (between taken (.push data :: rest)) =
      (some data, between (taken ++ [.push data]) rest) :=
  pushWhere_between taken rest data (by simpa using fits)

/-- An optional push of the right size is taken. -/
theorem optionalPushOfSize_between
    (size : Nat)
    (data : Bytes)
    (fits : data.length = size)
    (taken rest : Program) :
    optionalPushOfSize size (between taken (.push data :: rest)) =
      (some (some data), between (taken ++ [.push data]) rest) := by
  unfold optionalPushOfSize
  rw [pushOfSize_between size data fits]

/-- Before a push of another size an optional push is passed over. -/
theorem optionalPushOfSize_between_of_ne
    (taken rest : Program)
    (data : Bytes)
    (size : Nat)
    (other : data.length ≠ size) :
    optionalPushOfSize size (between taken (.push data :: rest)) =
      (some none, between taken (.push data :: rest)) := by
  unfold optionalPushOfSize pushOfSize
  rw [pushWhere_between_of_not taken rest data (by simpa using other)]

/-- At the end of a script an optional push is passed over. -/
theorem optionalPushOfSize_between_nil
    (taken : Program)
    (size : Nat) :
    optionalPushOfSize size (between taken []) = (some none, between taken []) := by
  simp [optionalPushOfSize, pushOfSize, pushWhere, Cursor.next?_between]

theorem data_between
    (taken rest : Program)
    (expected : Bytes) :
    data expected (between taken (.push expected :: rest)) =
      (some (), between (taken ++ [.push expected]) rest) := by
  unfold data
  rw [bind_eq (pushWhere_between taken rest expected (by simp))]
  rfl

theorem sequence_between
    (taken rest expected : Program) :
    sequence expected (between taken (expected ++ rest)) =
      (some (), between (taken ++ expected) rest) := by
  unfold sequence
  have found : ((between taken (expected ++ rest)).program.drop
      (between taken (expected ++ rest)).position).take expected.length = expected := by
    simp [between]
  rw [if_pos found, Cursor.advance_between]

theorem atEnd_between
    (taken : Program) :
    atEnd (between taken []) = (some (), between taken []) := by
  simp [atEnd, Cursor.isAtEnd, between]

section Taken

variable {taken rest : Program} {finish : Cursor}

/-- Only a push whose data is acceptable is taken. -/
theorem of_pushWhere_between
    {accepts : Bytes → Bool}
    {data : Bytes}
    (succeeds : pushWhere accepts (between taken rest) = (some data, finish)) :
    accepts data = true ∧ ∃ after, rest = .push data :: after ∧
      finish = between (taken ++ [.push data]) after := by
  unfold pushWhere at succeeds
  rw [Cursor.next?_between] at succeeds
  rcases rest with _ | ⟨_ | _, after⟩
  · cases succeeds
  · rename_i found
    simp only [List.head?_cons] at succeeds
    by_cases accepted : accepts found = true
    · rw [if_pos accepted] at succeeds
      obtain ⟨same, rfl⟩ := Prod.mk.inj succeeds
      obtain rfl := Option.some.inj same
      exact ⟨accepted, after, rfl, Cursor.advance_between taken [.push found] after⟩
    · rw [if_neg accepted] at succeeds
      cases succeeds
  · cases succeeds

theorem of_push_between
    {data : Bytes}
    (succeeds : push (between taken rest) = (some data, finish)) :
    ∃ after, rest = .push data :: after ∧ finish = between (taken ++ [.push data]) after :=
  (of_pushWhere_between succeeds).2

theorem of_pushOfSize_between
    {size : Nat}
    {data : Bytes}
    (succeeds : pushOfSize size (between taken rest) = (some data, finish)) :
    data.length = size ∧ ∃ after, rest = .push data :: after ∧
      finish = between (taken ++ [.push data]) after := by
  obtain ⟨accepted, taken⟩ := of_pushWhere_between succeeds
  exact ⟨of_decide_eq_true accepted, taken⟩

/-- An optional push either has the right size and is taken, or is passed
over. -/
theorem of_optionalPushOfSize_between
    {size : Nat}
    {data? : Option Bytes}
    (succeeds : optionalPushOfSize size (between taken rest) = (some data?, finish)) :
    (∀ data, data? = some data → data.length = size) ∧
      ∃ after, rest = (data?.map Instruction.push).toList ++ after ∧
        finish = between (taken ++ (data?.map Instruction.push).toList) after := by
  unfold optionalPushOfSize at succeeds
  cases answered : pushOfSize size (between taken rest) with
  | mk answer place =>
      rw [answered] at succeeds
      obtain ⟨same, rfl⟩ := Prod.mk.inj succeeds
      obtain rfl := Option.some.inj same
      cases answer with
      | none =>
          obtain rfl := pushWhere_of_none answered
          exact ⟨fun _ found => (nomatch found), rest, rfl, by simp⟩
      | some data =>
          obtain ⟨sized, taken⟩ := of_pushOfSize_between answered
          exact ⟨fun _ found => Option.some.inj found ▸ sized, taken⟩

theorem of_data_between
    {expected : Bytes}
    (succeeds : data expected (between taken rest) = (some (), finish)) :
    ∃ after, rest = .push expected :: after ∧
      finish = between (taken ++ [.push expected]) after := by
  obtain ⟨found, place, pushed, answered⟩ := exists_of_bind_eq succeeds
  obtain ⟨accepted, after, rfl, rfl⟩ := of_pushWhere_between pushed
  obtain rfl := of_decide_eq_true accepted
  exact ⟨after, rfl, (congrArg Prod.snd answered).symm⟩

theorem of_sequence_between
    {expected : Program}
    (succeeds : sequence expected (between taken rest) = (some (), finish)) :
    ∃ after, rest = expected ++ after ∧ finish = between (taken ++ expected) after := by
  unfold sequence at succeeds
  split at succeeds
  · rename_i found
    obtain ⟨_, rfl⟩ := Prod.mk.inj succeeds
    simp only [between, List.drop_left] at found
    obtain ⟨after, rfl⟩ : expected <+: rest := List.prefix_iff_eq_take.mpr found.symm
    exact ⟨after, rfl, Cursor.advance_between taken expected after⟩
  · cases succeeds

/-- Every instruction was taken if the end was reached. -/
theorem of_atEnd_between
    (succeeds : atEnd (between taken rest) = (some (), finish)) :
    rest = [] := by
  unfold atEnd Cursor.isAtEnd between at succeeds
  split at succeeds
  · rename_i reached
    simpa using reached
  · cases succeeds

end Taken

end Matcher

end WorkMarket
