import WorkMarket.Proofs.Script.Matching

/-!
# Calls on a cursor

A reader of scripts calls one matcher after another on the same cursor, and goes
on after those that found nothing.  `Finds` says what a call finds at the head of
what is left: a run of instructions, which may be empty.  A call moves the cursor
behind the run that it finds, and a call that finds nothing leaves it in place.  So
after any calls the cursor stands within the script or at its end.
-/

namespace WorkMarket
namespace Cursor

/-- What can be asked of a cursor. -/
inductive Call where
  /-- A push of any size. -/
  | push
  /-- A push of exactly `size` bytes. -/
  | pushOfSize (size : Nat)
  /-- A push of exactly `size` bytes, which may be missing. -/
  | optionalPushOfSize (size : Nat)
  /-- A push of exactly these bytes. -/
  | data (expected : Bytes)
  /-- A run of instructions. -/
  | sequence (expected : Program)
  /-- Nothing more. -/
  | atEnd
  /-- Whether there is nothing more. -/
  | isAtEnd
deriving DecidableEq

/-- What a call answers. -/
inductive Answer where
  /-- What was asked for does not come next. -/
  | nothing
  /-- It does, and is a push of these bytes. -/
  | pushed (data : Bytes)
  /-- It does. -/
  | matched
  /-- It is so, or it is not. -/
  | whether (value : Bool)
deriving DecidableEq

namespace Answer

/-- The answer to a call for a push. -/
def ofPush?
    (found : Option Bytes) :
    Answer :=
  found.elim .nothing .pushed

/-- The answer to a call for what is known. -/
def ofMatch?
    (found : Option Unit) :
    Answer :=
  found.elim .nothing fun _ => .matched

end Answer

/-- The answer to a call, and the cursor after it. -/
def perform
    (cursor : Cursor) :
    Call → Answer × Cursor
  | .push => (Matcher.push cursor).map Answer.ofPush? id
  | .pushOfSize size => (Matcher.pushOfSize size cursor).map Answer.ofPush? id
  | .optionalPushOfSize size =>
      (Matcher.optionalPushOfSize size cursor).map (fun data? => Answer.ofPush? data?.join) id
  | .data expected => (Matcher.data expected cursor).map Answer.ofMatch? id
  | .sequence expected => (Matcher.sequence expected cursor).map Answer.ofMatch? id
  | .atEnd => (Matcher.atEnd cursor).map Answer.ofMatch? id
  | .isAtEnd => (.whether cursor.isAtEnd, cursor)

/-- The cursor after several calls. -/
def run
    (cursor : Cursor)
    (calls : List Call) :
    Cursor :=
  calls.foldl (fun place call => (place.perform call).2) cursor

/-- What a call finds at the head of what is left: its answer, and the run that it
is about. -/
inductive Finds
    (rest : Program) :
    Call → Answer → Program → Prop
  | push
      (data : Bytes)
      (next : [.push data] <+: rest) :
      Finds rest .push (.pushed data) [.push data]
  | pushOfSize
      {size : Nat}
      (data : Bytes)
      (sized : data.length = size)
      (next : [.push data] <+: rest) :
      Finds rest (.pushOfSize size) (.pushed data) [.push data]
  | optionalPushOfSize
      {size : Nat}
      (data : Bytes)
      (sized : data.length = size)
      (next : [.push data] <+: rest) :
      Finds rest (.optionalPushOfSize size) (.pushed data) [.push data]
  | data
      (expected : Bytes)
      (next : [.push expected] <+: rest) :
      Finds rest (.data expected) .matched [.push expected]
  | sequence
      (expected : Program)
      (next : expected <+: rest) :
      Finds rest (.sequence expected) .matched expected
  | atEnd
      (nothingLeft : rest = []) :
      Finds rest .atEnd .matched []
  | isAtEnd : Finds rest .isAtEnd (.whether (rest = [])) []

/-- Whether a call behind `taken` and before `rest` does what it should: it takes
what it finds, or finds nothing and takes nothing. -/
def Advances
    (taken rest : Program)
    (call : Call)
    (outcome : Answer × Cursor) : Prop :=
  (∃ answer run after, rest = run ++ after ∧ Finds rest call answer run ∧
      outcome = (answer, between (taken ++ run) after)) ∨
    (∀ answer run, ¬Finds rest call answer run) ∧ outcome = (.nothing, between taken rest)

end Cursor

namespace Matcher

open Cursor (between Advances Finds)

variable (taken rest : Program)

/-- A push is taken if its data is acceptable, and otherwise nothing is. -/
theorem pushWhere_between_cases
    (accepts : Bytes → Bool) :
    (∃ data after, rest = .push data :: after ∧ accepts data = true ∧
        pushWhere accepts (between taken rest) =
          (some data, between (taken ++ [.push data]) after)) ∨
      (∀ data, accepts data = true → ¬[.push data] <+: rest) ∧
        pushWhere accepts (between taken rest) = (none, between taken rest) := by
  cases answered : pushWhere accepts (between taken rest) with
  | mk found finish =>
      cases found with
      | some data =>
          obtain ⟨accepted, after, rfl, rfl⟩ := of_pushWhere_between answered
          exact Or.inl ⟨data, after, rfl, accepted, rfl⟩
      | none =>
          obtain rfl := pushWhere_of_none answered
          refine Or.inr ⟨?_, rfl⟩
          rintro data accepted ⟨after, rfl⟩
          rw [List.singleton_append, pushWhere_between taken after data accepted] at answered
          cases answered

theorem sequence_between_cases
    (expected : Program) :
    (∃ after, rest = expected ++ after ∧
        sequence expected (between taken rest) = (some (), between (taken ++ expected) after)) ∨
      ¬expected <+: rest ∧ sequence expected (between taken rest) = (none, between taken rest) := by
  by_cases next : expected <+: rest
  · obtain ⟨after, rfl⟩ := next
    exact Or.inl ⟨after, rfl, sequence_between taken after expected⟩
  · refine Or.inr ⟨next, ?_⟩
    unfold sequence
    rw [if_neg]
    rw [List.prefix_iff_eq_take, eq_comm] at next
    simpa [between] using next

/-- A call for a push does what it should if it finds just the acceptable ones. -/
theorem advances_pushWhere
    {call : Cursor.Call}
    {accepts : Bytes → Bool}
    {respond : Bytes → Cursor.Answer}
    (finds_iff : ∀ answer run, Finds rest call answer run ↔
      ∃ data, accepts data = true ∧ [.push data] <+: rest ∧
        answer = respond data ∧ run = [.push data]) :
    Advances taken rest call
      ((pushWhere accepts (between taken rest)).map (fun found => found.elim .nothing respond)
        id) := by
  rcases pushWhere_between_cases taken rest accepts with
    ⟨data, after, rfl, accepted, found⟩ | ⟨other, missed⟩
  · rw [found]
    exact Or.inl ⟨respond data, [.push data], after, rfl,
      (finds_iff _ _).mpr ⟨data, accepted, ⟨after, rfl⟩, rfl, rfl⟩, rfl⟩
  · rw [missed]
    refine Or.inr ⟨fun answer run finds => ?_, rfl⟩
    obtain ⟨data, accepted, next, -, -⟩ := (finds_iff _ _).mp finds
    exact other data accepted next

/-- Data that are known are a push whose data are them. -/
theorem data_apply
    (expected : Bytes)
    (cursor : Cursor) :
    data expected cursor =
      (pushWhere (fun found => found = expected) cursor).map (Option.map fun _ => ()) id := by
  unfold data
  simp only [Bind.bind, OptionT.bind, OptionT.mk, StateT.bind]
  rcases pushWhere (fun found => found = expected) cursor with ⟨_ | found, finish⟩
  · rfl
  · rfl

end Matcher

namespace Cursor

theorem advances_data
    (taken rest : Program)
    (expected : Bytes) :
    Advances taken rest (.data expected) ((between taken rest).perform (.data expected)) := by
  change Advances taken rest _ ((Matcher.data expected (between taken rest)).map _ id)
  rw [Matcher.data_apply, Prod.map_map]
  have respond : Answer.ofMatch? ∘ Option.map (fun _ => ()) =
      fun found : Option Bytes => found.elim .nothing fun _ => .matched := by
    funext found
    cases found <;> rfl
  rw [respond]
  refine Matcher.advances_pushWhere taken rest fun answer run => ⟨?_, ?_⟩
  · intro finds
    cases finds with
    | data _ next => exact ⟨expected, decide_eq_true rfl, next, rfl, rfl⟩
  · rintro ⟨data, same, next, rfl, rfl⟩
    obtain rfl := of_decide_eq_true same
    exact .data data next

theorem advances_sequence
    (taken rest expected : Program) :
    Advances taken rest (.sequence expected)
      ((between taken rest).perform (.sequence expected)) := by
  change Advances taken rest _ ((Matcher.sequence expected (between taken rest)).map _ id)
  rcases Matcher.sequence_between_cases taken rest expected with
    ⟨after, rfl, found⟩ | ⟨other, missed⟩
  · rw [found]
    exact Or.inl ⟨.matched, expected, after, rfl, .sequence expected ⟨after, rfl⟩, rfl⟩
  · rw [missed]
    refine Or.inr ⟨fun answer run finds => ?_, rfl⟩
    cases finds with
    | sequence _ next => exact other next

theorem advances_atEnd
    (taken rest : Program) :
    Advances taken rest .atEnd ((between taken rest).perform .atEnd) := by
  cases rest with
  | nil =>
      refine Or.inl ⟨.matched, [], [], rfl, .atEnd rfl, ?_⟩
      simp [perform, Matcher.atEnd_between, Answer.ofMatch?]
  | cons next rest =>
      refine Or.inr ⟨fun answer run finds => ?_, ?_⟩
      · cases finds with
        | atEnd nothingLeft => cases nothingLeft
      · simp [perform, Matcher.atEnd, isAtEnd, between, Answer.ofMatch?]

/-- Every call does what it should. -/
theorem advances_perform
    (taken rest : Program)
    (call : Call) :
    Advances taken rest call ((between taken rest).perform call) := by
  cases call with
  | push =>
      refine Matcher.advances_pushWhere taken rest fun answer run => ⟨?_, ?_⟩
      · intro finds
        cases finds with
        | push data next => exact ⟨data, rfl, next, rfl, rfl⟩
      · rintro ⟨data, -, next, rfl, rfl⟩
        exact .push data next
  | pushOfSize size =>
      refine Matcher.advances_pushWhere taken rest fun answer run => ⟨?_, ?_⟩
      · intro finds
        cases finds with
        | pushOfSize data sized next => exact ⟨data, decide_eq_true sized, next, rfl, rfl⟩
      · rintro ⟨data, sized, next, rfl, rfl⟩
        exact .pushOfSize data (of_decide_eq_true sized) next
  | optionalPushOfSize size =>
      refine Matcher.advances_pushWhere taken rest fun answer run => ⟨?_, ?_⟩
      · intro finds
        cases finds with
        | optionalPushOfSize data sized next => exact ⟨data, decide_eq_true sized, next, rfl, rfl⟩
      · rintro ⟨data, sized, next, rfl, rfl⟩
        exact .optionalPushOfSize data (of_decide_eq_true sized) next
  | data expected => exact advances_data taken rest expected
  | sequence expected => exact advances_sequence taken rest expected
  | atEnd => exact advances_atEnd taken rest
  | isAtEnd =>
      refine Or.inl ⟨_, [], rest, rfl, .isAtEnd, ?_⟩
      simp [perform, isAtEnd, between]

/-- One call leaves the script as what was taken and what is left. -/
theorem exists_perform_eq_between
    (taken rest : Program)
    (call : Call) :
    ∃ run after, rest = run ++ after ∧
      ((between taken rest).perform call).2 = between (taken ++ run) after := by
  rcases advances_perform taken rest call with
    ⟨answer, run, after, split, -, found⟩ | ⟨-, missed⟩
  · exact ⟨run, after, split, congrArg Prod.snd found⟩
  · exact ⟨[], rest, rfl, by rw [missed, List.append_nil]⟩

/-- And so do any calls. -/
theorem exists_run_eq_between
    (taken rest : Program)
    (calls : List Call) :
    ∃ run after, rest = run ++ after ∧
      (between taken rest).run calls = between (taken ++ run) after := by
  induction calls generalizing taken rest with
  | nil => exact ⟨[], rest, rfl, by rw [List.append_nil]; rfl⟩
  | cons call calls inductionHypothesis =>
      obtain ⟨run, after, rfl, moved⟩ := exists_perform_eq_between taken rest call
      obtain ⟨later, left, rfl, reached⟩ := inductionHypothesis (taken ++ run) after
      refine ⟨run ++ later, left, (List.append_assoc _ _ _).symm, ?_⟩
      change ((between taken (run ++ (later ++ left))).perform call).2.run calls = _
      rw [moved, reached, List.append_assoc]

/-- What holds of a cursor in a script: it stands within the script or at its end,
each call either finds something at the head of what is left, and moves the cursor
behind it, or finds nothing, answers so and leaves the cursor, and the end is
reached just behind the whole script. -/
structure StandsIn
    (cursor : Cursor)
    (program : Program) : Prop where
  program_eq : cursor.program = program
  position_le : cursor.position ≤ program.length
  performs : ∀ call,
    (∃ answer run, Finds (program.drop cursor.position) call answer run ∧
        (program.drop cursor.position).take run.length = run ∧
        cursor.position + run.length ≤ program.length ∧
        cursor.perform call = (answer, cursor.advance run.length)) ∨
      (∀ answer run, ¬Finds (program.drop cursor.position) call answer run) ∧
        cursor.perform call = (.nothing, cursor)
  ends_iff : (cursor.perform .atEnd).1 = .matched ↔ cursor.position = program.length
  tells_end : (cursor.perform .isAtEnd).1 = .whether (cursor.position = program.length)

/-- The end is reached just behind the whole script. -/
theorem perform_atEnd_eq_matched_iff
    (cursor : Cursor) :
    (cursor.perform .atEnd).1 = .matched ↔ cursor.position = cursor.program.length := by
  by_cases reached : cursor.position = cursor.program.length <;>
    simp [perform, Matcher.atEnd, isAtEnd, Answer.ofMatch?, reached]

theorem standsIn_between
    (taken rest : Program) :
    (between taken rest).StandsIn (taken ++ rest) where
  program_eq := rfl
  position_le := by simp [between]
  performs := by
    intro call
    have left : (taken ++ rest).drop (between taken rest).position = rest := List.drop_left
    rw [left]
    rcases advances_perform taken rest call with
      ⟨answer, run, after, rfl, finds, found⟩ | missed
    · refine Or.inl ⟨answer, run, finds, List.take_left, ?_, ?_⟩
      · simp [between, ← Nat.add_assoc]
      · rw [found, advance_between]
    · exact Or.inr missed
  ends_iff := perform_atEnd_eq_matched_iff _
  tells_end := rfl

/-- Whatever calls were made, the cursor stands in the script. -/
theorem run_standsIn
    (program : Program)
    (calls : List Call) :
    ((start program).run calls).StandsIn program := by
  obtain ⟨taken, rest, rfl, reached⟩ := exists_run_eq_between [] program calls
  rw [start_eq_between, reached]
  exact standsIn_between _ rest

/-- Calls that find nothing are passed over. -/
example :
    (start [.push [9], .op Opcode.drop]).run
        [.data [8], .sequence [.op Opcode.drop], .push, .optionalPushOfSize 20,
          .sequence [.op Opcode.drop], .push, .atEnd] =
      ⟨[.push [9], .op Opcode.drop], 2⟩ := by
  decide

end Cursor
end WorkMarket
