import Mathlib.Data.List.Nodup
import WorkMarket.Proofs.Pow.HashCheck
import WorkMarket.Proofs.Pow.NonceSearch

/-!
# Searching is scanning in turn

The searcher exchanges the nonce in one buffer and looks at a flag.  The plain
way to search lays out the candidate of each solution anew and asks whether it is
valid, nonce by nonce from the template's on, around the end of the nonces, and
until one is valid or the window is used up.  Both answer alike and hash alike.
A window of no more than all nonces may therefore be searched in parts.  What is
hashed on the way is told by the same search with a meter that remembers it.
-/

namespace WorkMarket

/-- One step and some more. -/
theorem add_one_add_ofNat
    (nonce : UInt32)
    (steps : Nat) :
    nonce + 1 + UInt32.ofNat steps = nonce + UInt32.ofNat (steps + 1) := by
  rw [Nat.add_comm steps 1, UInt32.ofNat_add, UInt32.add_assoc]
  rfl

namespace Solution

/-- The solution whose nonce is so many steps further, wrapping around. -/
def ahead
    (template : Solution)
    (steps : Nat) :
    Solution :=
  template.withNonce (template.nonce + UInt32.ofNat steps)

/-- Within one round of all nonces no nonce comes twice. -/
theorem eq_of_nonce_ahead_eq
    {template : Solution}
    {first second : Nat}
    (firstInside : first < UInt32.size)
    (secondInside : second < UInt32.size)
    (same : (template.ahead first).nonce = (template.ahead second).nonce) :
    first = second := by
  have steps : UInt32.ofNat first = UInt32.ofNat second := UInt32.add_right_inj _ |>.mp same
  have numbers := congrArg UInt32.toNat steps
  rwa [UInt32.toNat_ofNat_of_lt' firstInside, UInt32.toNat_ofNat_of_lt' secondInside] at numbers

end Solution

namespace Candidate

/-- What a buffer is hashed with after so many exchanges of its nonce. -/
def ahead
    (candidate : Candidate)
    (nonce : UInt32)
    (steps : Nat) :
    Candidate :=
  candidate.setNonce (nonce + UInt32.ofNat steps)

@[simp] theorem ahead_zero
    (candidate : Candidate)
    (nonce : UInt32) :
    candidate.ahead nonce 0 = candidate.setNonce nonce := by
  simp [ahead]

/-- Only the last nonce that is set counts. -/
theorem ahead_setNonce
    (candidate : Candidate)
    (nonce : UInt32)
    (steps : Nat) :
    (candidate.setNonce nonce).ahead (nonce + 1) steps = candidate.ahead nonce (steps + 1) := by
  unfold ahead
  rw [setNonce_setNonce, add_one_add_ofNat]

/-- The buffer over a puzzle's root becomes the candidates of the solutions in
turn. -/
theorem ahead_ofSolution
    (puzzle : Puzzle)
    (template : Solution)
    (steps : Nat) :
    (ofSolution puzzle template).ahead template.nonce steps =
      ofSolution puzzle (template.ahead steps) :=
  setNonce_ofSolution puzzle template _

end Candidate

namespace HashMeter

section Views

variable {σ τ : Type} {check : σ → Candidate → (Bool × Digest) × σ}
  {viewed : τ → Candidate → (Bool × Digest) × τ} (view : σ → τ)

/-- A scan does not depend on what its state holds beyond the view in which the
candidates are checked. -/
theorem scanWith_view
    (agrees : ∀ state candidate,
      viewed (view state) candidate = ((check state candidate).1, view (check state candidate).2))
    (remaining : Nat)
    (nonce : UInt32)
    (candidate : Candidate)
    (state : σ) :
    scanWith viewed remaining nonce candidate (view state) =
      ((scanWith check remaining nonce candidate state).1,
        view (scanWith check remaining nonce candidate state).2) := by
  induction remaining generalizing nonce candidate state with
  | zero => rfl
  | succ remaining inductionHypothesis =>
      rw [scanWith, scanWith]
      simp only [agrees]
      split
      · rfl
      · exact inductionHypothesis _ _ _

/-- Nor does a search. -/
theorem searchWith_view
    (agrees : ∀ state candidate,
      viewed (view state) candidate = ((check state candidate).1, view (check state candidate).2))
    (state : σ)
    (puzzle : Puzzle)
    (template : Solution)
    (count : Nat) :
    searchWith viewed (view state) puzzle template count =
      ((searchWith check state puzzle template count).1,
        view (searchWith check state puzzle template count).2) := by
  unfold searchWith
  split
  · simp only [scanWith_view view agrees]
  · rfl

end Views

/-- A meter that remembers what it hashed. -/
structure Trace where
  meter : HashMeter
  hashed : List Candidate

/-- Check a candidate as the meter does, and remember it. -/
def Trace.check
    (trace : Trace)
    (candidate : Candidate) :
    (Bool × Digest) × Trace :=
  let (answer, meter) := trace.meter.check candidate
  (answer, ⟨meter, trace.hashed ++ [candidate]⟩)

section Scans

variable {candidate : Candidate} {nonce : UInt32}

theorem scan_succ_eq
    (remaining : Nat)
    (nonce : UInt32)
    (candidate : Candidate)
    (meter : HashMeter) :
    scan (remaining + 1) nonce candidate meter =
      if (candidate.ahead nonce 0).isValid then (some nonce, ⟨meter.count + 1⟩)
      else scan remaining (nonce + 1) (candidate.setNonce nonce) ⟨meter.count + 1⟩ := by
  rw [← Candidate.isMetBy_eq_isValid, Candidate.ahead_zero]
  exact scan_succ remaining nonce candidate meter

/-- A scan hashes the buffer with one nonce after the other, and counts each. -/
theorem exists_scanWith_check
    (remaining : Nat)
    (nonce : UInt32)
    (candidate : Candidate)
    (trace : Trace) :
    ∃ steps ≤ remaining, (scanWith Trace.check remaining nonce candidate trace).2 =
      ⟨⟨trace.meter.count + steps⟩,
        trace.hashed ++ (List.range steps).map (candidate.ahead nonce)⟩ := by
  induction remaining generalizing nonce candidate trace with
  | zero => exact ⟨0, le_rfl, by simp [scanWith]⟩
  | succ remaining inductionHypothesis =>
      rw [scanWith]
      dsimp only [Trace.check, check]
      split
      · exact ⟨1, Nat.succ_pos remaining, by simp [List.range_succ]⟩
      · obtain ⟨steps, inside, traced⟩ := inductionHypothesis (nonce + 1)
          (candidate.setNonce nonce)
          ⟨⟨trace.meter.count + 1⟩, trace.hashed ++ [candidate.setNonce nonce]⟩
        refine ⟨steps + 1, Nat.succ_le_succ inside, ?_⟩
        rw [traced, List.range_succ_eq_map, List.map_cons, List.map_map, Candidate.ahead_zero,
          List.append_assoc, List.singleton_append, Nat.add_assoc, Nat.add_comm 1]
        congr 3
        exact List.map_congr_left fun steps _ => candidate.ahead_setNonce nonce steps

/-- A scan stops at the first nonce with a valid candidate, or has gone through
all of them. -/
theorem scan_cases
    (remaining : Nat)
    (nonce : UInt32)
    (candidate : Candidate)
    (meter : HashMeter) :
    (∃ steps < remaining, (candidate.ahead nonce steps).isValid = true ∧
        (∀ earlier < steps, (candidate.ahead nonce earlier).isValid = false) ∧
        scan remaining nonce candidate meter =
          (some (nonce + UInt32.ofNat steps), ⟨meter.count + (steps + 1)⟩)) ∨
      (∀ steps < remaining, (candidate.ahead nonce steps).isValid = false) ∧
        scan remaining nonce candidate meter = (none, ⟨meter.count + remaining⟩) := by
  induction remaining generalizing nonce candidate meter with
  | zero => exact Or.inr ⟨nofun, rfl⟩
  | succ remaining inductionHypothesis =>
      rw [scan_succ_eq]
      cases here : (candidate.ahead nonce 0).isValid with
      | true => exact Or.inl ⟨0, Nat.succ_pos _, here, nofun, by simp⟩
      | false =>
          have later := inductionHypothesis (nonce + 1) (candidate.setNonce nonce)
            ⟨meter.count + 1⟩
          simp only [Candidate.ahead_setNonce] at later
          rcases later with ⟨steps, inside, valid, before, stopped⟩ | ⟨before, gone⟩
          · refine Or.inl ⟨steps + 1, Nat.succ_lt_succ inside, valid, ?_, ?_⟩
            · rintro (_ | earlier) less
              · exact here
              · exact before earlier (Nat.lt_of_succ_lt_succ less)
            · rw [if_neg Bool.false_ne_true, stopped, add_one_add_ofNat, Nat.add_assoc,
                Nat.add_comm 1]
          · refine Or.inr ⟨?_, ?_⟩
            · rintro (_ | earlier) less
              · exact here
              · exact before earlier (Nat.lt_of_succ_lt_succ less)
            · rw [if_neg Bool.false_ne_true, gone, Nat.add_right_comm, Nat.add_assoc]

/-- Which nonce the buffer holds before a scan does not matter. -/
theorem scan_setNonce
    (remaining : Nat)
    (nonce other : UInt32)
    (candidate : Candidate)
    (meter : HashMeter) :
    scan remaining nonce (candidate.setNonce other) meter =
      scan remaining nonce candidate meter := by
  cases remaining with
  | zero => rfl
  | succ remaining => rw [scan_succ, scan_succ, Candidate.setNonce_setNonce]

/-- A scan goes on where a shorter one has found nothing. -/
theorem scan_add
    (first second : Nat)
    (nonce : UInt32)
    (candidate : Candidate)
    (meter : HashMeter) :
    scan (first + second) nonce candidate meter =
      match scan first nonce candidate meter with
      | (some found, meter) => (some found, meter)
      | (none, meter) => scan second (nonce + UInt32.ofNat first) candidate meter := by
  induction first generalizing nonce candidate meter with
  | zero => simp [scan, scanWith]
  | succ first inductionHypothesis =>
      rw [Nat.succ_add, scan_succ_eq, scan_succ_eq]
      split
      · rfl
      · rw [inductionHypothesis, add_one_add_ofNat]
        simp only [scan_setNonce]

end Scans

section Searches

variable {puzzle : Puzzle} {template : Solution}

theorem search_of_invalid
    (invalid : puzzle.isValid = false)
    (template : Solution)
    (count : Nat)
    (meter : HashMeter) :
    meter.search puzzle template count = (none, meter) := by
  unfold search searchWith
  rw [invalid]
  rfl

theorem search_of_valid
    (valid : puzzle.isValid = true)
    (template : Solution)
    (count : Nat)
    (meter : HashMeter) :
    meter.search puzzle template count =
      ((scan (min count nonceSpace) template.nonce (.ofSolution puzzle template) meter).1.map
          template.withNonce,
        (scan (min count nonceSpace) template.nonce (.ofSolution puzzle template) meter).2) := by
  unfold search searchWith
  rw [valid]
  rfl

/-- The search with a meter that remembers what it hashes, from nothing on. -/
def tracedSearch
    (meter : HashMeter)
    (puzzle : Puzzle)
    (template : Solution)
    (count : Nat) :
    Option Solution × Trace :=
  searchWith Trace.check ⟨meter, []⟩ puzzle template count

/-- The candidates that a search hashes, in turn. -/
def tried
    (meter : HashMeter)
    (puzzle : Puzzle)
    (template : Solution)
    (count : Nat) :
    List Candidate :=
  (meter.tracedSearch puzzle template count).2.hashed

/-- Remembering what is hashed changes neither the answer nor the count. -/
theorem search_eq_tracedSearch
    (meter : HashMeter)
    (puzzle : Puzzle)
    (template : Solution)
    (count : Nat) :
    meter.search puzzle template count =
      ((meter.tracedSearch puzzle template count).1,
        (meter.tracedSearch puzzle template count).2.meter) :=
  searchWith_view Trace.meter (fun _ _ => rfl) ⟨meter, []⟩ puzzle template count

/-- A search hashes the candidates of the solutions from the template's on, and
counts each. -/
theorem exists_tracedSearch
    (meter : HashMeter)
    (puzzle : Puzzle)
    (template : Solution)
    (count : Nat) :
    ∃ steps ≤ min count nonceSpace, (meter.tracedSearch puzzle template count).2 =
      ⟨⟨meter.count + steps⟩,
        (List.range steps).map fun steps => .ofSolution puzzle (template.ahead steps)⟩ := by
  unfold tracedSearch searchWith
  split
  · obtain ⟨steps, inside, traced⟩ := exists_scanWith_check (min count nonceSpace) template.nonce
      (.ofSolution puzzle template) ⟨meter, []⟩
    refine ⟨steps, inside, traced.trans (congrArg (Trace.mk _) ?_)⟩
    rw [List.nil_append]
    exact List.map_congr_left fun steps _ => Candidate.ahead_ofSolution puzzle template steps
  · exact ⟨0, Nat.zero_le _, rfl⟩

theorem length_tried_le
    (meter : HashMeter)
    (puzzle : Puzzle)
    (template : Solution)
    (count : Nat) :
    (meter.tried puzzle template count).length ≤ min count nonceSpace := by
  obtain ⟨steps, inside, traced⟩ := meter.exists_tracedSearch puzzle template count
  rw [tried, traced, List.length_map, List.length_range]
  exact inside

/-- Each candidate that is hashed is counted. -/
theorem count_search
    (meter : HashMeter)
    (puzzle : Puzzle)
    (template : Solution)
    (count : Nat) :
    (meter.search puzzle template count).2.count =
      meter.count + (meter.tried puzzle template count).length := by
  obtain ⟨steps, _, traced⟩ := meter.exists_tracedSearch puzzle template count
  rw [search_eq_tracedSearch, tried, traced, List.length_map, List.length_range]

/-- What is tried are the candidates of the solutions from the template's on. -/
theorem tried_eq_map
    (meter : HashMeter)
    (puzzle : Puzzle)
    (template : Solution)
    (count : Nat) :
    meter.tried puzzle template count =
      (List.range (meter.tried puzzle template count).length).map
        fun steps => .ofSolution puzzle (template.ahead steps) := by
  obtain ⟨steps, _, traced⟩ := meter.exists_tracedSearch puzzle template count
  rw [tried, traced, List.length_map, List.length_range]

/-- No nonce is tried twice. -/
theorem nodup_nonces_tried
    (meter : HashMeter)
    (puzzle : Puzzle)
    (template : Solution)
    (count : Nat) :
    ((meter.tried puzzle template count).map Candidate.nonce).Nodup := by
  have bound : (meter.tried puzzle template count).length ≤ UInt32.size :=
    Nat.le_trans (meter.length_tried_le puzzle template count) (Nat.min_le_right _ _)
  rw [tried_eq_map, List.map_map]
  refine List.Nodup.map_on ?_ List.nodup_range
  intro first firstInside second secondInside same
  have sameNonce : (template.ahead first).nonce = (template.ahead second).nonce := by
    simpa using same
  refine Solution.eq_of_nonce_ahead_eq ?_ ?_ sameNonce
  · exact Nat.lt_of_lt_of_le (List.mem_range.mp firstInside) bound
  · exact Nat.lt_of_lt_of_le (List.mem_range.mp secondInside) bound

/-- A search goes on where a shorter one has found nothing. -/
theorem search_add
    {first second : Nat}
    (fits : first + second ≤ nonceSpace)
    (puzzle : Puzzle)
    (template : Solution)
    (meter : HashMeter) :
    meter.search puzzle template (first + second) =
      match meter.search puzzle template first with
      | (some found, meter) => (some found, meter)
      | (none, meter) => meter.search puzzle (template.ahead first) second := by
  cases valid : puzzle.isValid with
  | false => simp only [search_of_invalid valid]
  | true =>
      have firstFits : min first nonceSpace = first := by omega
      have secondFits : min second nonceSpace = second := by omega
      simp only [search_of_valid valid]
      rw [Nat.min_eq_left fits, firstFits, secondFits, scan_add]
      cases scan first template.nonce (.ofSolution puzzle template) meter with
      | mk found meter =>
          cases found with
          | some nonce => rfl
          | none =>
              dsimp only [Option.map_none]
              rw [← Candidate.ahead_ofSolution, Candidate.ahead, scan_setNonce]
              rfl

/-- Search windows of so many nonces, each from where the one before it ends, until
a solution is found. -/
def searchWindows
    (puzzle : Puzzle) :
    List Nat → Solution → HashMeter → Option Solution × HashMeter
  | [], _, meter => (none, meter)
  | count :: counts, template, meter =>
      match meter.search puzzle template count with
      | (some found, meter) => (some found, meter)
      | (none, meter) => searchWindows puzzle counts (template.ahead count) meter

/-- A window of no more than all nonces may be searched in parts. -/
theorem searchWindows_eq
    (puzzle : Puzzle)
    {counts : List Nat}
    (fits : counts.sum ≤ nonceSpace)
    (template : Solution)
    (meter : HashMeter) :
    searchWindows puzzle counts template meter = meter.search puzzle template counts.sum := by
  induction counts generalizing template meter with
  | nil =>
      cases valid : puzzle.isValid with
      | false => rw [search_of_invalid valid, searchWindows]
      | true =>
          rw [search_of_valid valid, searchWindows, List.sum_nil, Nat.zero_min]
          rfl
  | cons count counts inductionHypothesis =>
      rw [List.sum_cons] at fits
      have rest : counts.sum ≤ nonceSpace := by omega
      rw [searchWindows, List.sum_cons, search_add fits]
      simp only [inductionHypothesis rest]

/-- The nonces of a window, each at most once, are tried in turn. -/
structure SearchesInTurn
    (meter : HashMeter)
    (puzzle : Puzzle)
    (template : Solution)
    (count : Nat) : Prop where
  refused : puzzle.target.isValid = false → meter.search puzzle template count = (none, meter)
  /-- The first valid candidate decides, or there is none in the window. -/
  decided : puzzle.target.isValid = true →
    (∃ steps < min count nonceSpace,
        (Candidate.ofSolution puzzle (template.ahead steps)).isValid = true ∧
        (∀ earlier < steps,
          (Candidate.ofSolution puzzle (template.ahead earlier)).isValid = false) ∧
        meter.search puzzle template count =
          (some (template.ahead steps), ⟨meter.count + (steps + 1)⟩)) ∨
      (∀ steps < min count nonceSpace,
          (Candidate.ofSolution puzzle (template.ahead steps)).isValid = false) ∧
        meter.search puzzle template count = (none, ⟨meter.count + min count nonceSpace⟩)
  /-- What is tried is told by a search that answers and counts alike. -/
  traced : meter.search puzzle template count =
    ((meter.tracedSearch puzzle template count).1,
      (meter.tracedSearch puzzle template count).2.meter)
  counted : (meter.search puzzle template count).2.count =
    meter.count + (meter.tried puzzle template count).length
  consecutive : meter.tried puzzle template count =
    (List.range (meter.tried puzzle template count).length).map
      fun steps => .ofSolution puzzle (template.ahead steps)
  once : ((meter.tried puzzle template count).map Candidate.nonce).Nodup
  solves : ∀ found, (meter.search puzzle template count).1 = some found →
    (⟨puzzle, found⟩ : WorkProof).isValid = true
  windows : ∀ counts : List Nat, counts.sum = count → count ≤ nonceSpace →
    searchWindows puzzle counts template meter = meter.search puzzle template count

/-- Whatever the puzzle, the template and the size of the window, a search answers
and counts as the plain scan does. -/
theorem search_searchesInTurn
    (meter : HashMeter)
    (puzzle : Puzzle)
    (template : Solution)
    (count : Nat) :
    meter.SearchesInTurn puzzle template count where
  refused := fun invalid => search_of_invalid invalid template count meter
  decided := by
    intro valid
    have cases := scan_cases (min count nonceSpace) template.nonce
      (.ofSolution puzzle template) meter
    simp only [Candidate.ahead_ofSolution] at cases
    rw [search_of_valid valid]
    rcases cases with ⟨steps, inside, solved, before, stopped⟩ | ⟨before, gone⟩
    · rw [stopped]
      exact Or.inl ⟨steps, inside, solved, before, rfl⟩
    · rw [gone]
      exact Or.inr ⟨before, rfl⟩
  traced := search_eq_tracedSearch meter puzzle template count
  counted := count_search meter puzzle template count
  consecutive := tried_eq_map meter puzzle template count
  once := nodup_nonces_tried meter puzzle template count
  solves := fun _ answered => isValid_of_search_eq_some answered
  windows := by
    rintro counts rfl fits
    exact searchWindows_eq puzzle fits template meter

end Searches
end HashMeter
end WorkMarket
