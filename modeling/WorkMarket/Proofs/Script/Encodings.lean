import Mathlib.Data.List.Forall2
import WorkMarket.Proofs.Script.ByteCode

/-!
# Byte code is split exactly

A push can be written in several forms, an opcode in one.  Splitting takes
whatever encoding comes first off a script and leaves what follows, and fails
exactly on a push that is cut short.  By induction on the bytes every script is
a row of encodings, perhaps with such a push at its end, and `decompile` tells
which.  The form that `compile` writes is the only shortest one.
-/

namespace WorkMarket
namespace Instruction

/-- The opcodes that announce a push by a length of so many bytes. -/
inductive Announces : UInt8 → Nat → Prop
  | oneByte : Announces Opcode.pushData₁ 1
  | twoBytes : Announces Opcode.pushData₂ 2
  | fourBytes : Announces Opcode.pushData₄ 4

/-- The bytes that mean an instruction: an opcode above those of pushes means
itself, and a push has its data behind their length. -/
inductive IsEncoding : Instruction → Bytes → Prop
  | op
      (code : UInt8)
      (above : 0x4f ≤ code) :
      IsEncoding (.op code) [code]
  | empty : IsEncoding (.push []) [Opcode.empty]
  | short
      (data : Bytes)
      (nonempty : 0 < data.length)
      (short : data.length ≤ 75) :
      IsEncoding (.push data) (UInt8.ofNat data.length :: data)
  | measured
      {code : UInt8}
      {width : Nat}
      (announces : Announces code width)
      (field data : Bytes)
      (wide : field.length = width)
      (measures : LittleEndian.decode field = data.length) :
      IsEncoding (.push data) (code :: (field ++ data))

/-- The encodings than which none is shorter. -/
structure IsShortest
    (instruction : Instruction)
    (bytes : Bytes) : Prop where
  encoding : IsEncoding instruction bytes
  le : ∀ other, IsEncoding instruction other → bytes.length ≤ other.length

/-- The ends of scripts at which a push runs past the end: its data are
missing, or already their length is. -/
inductive IsCutShort : Bytes → Prop
  | short
      (code : UInt8)
      (data : Bytes)
      (small : code.toNat ≤ 75)
      (missing : data.length < code.toNat) :
      IsCutShort (code :: data)
  | field
      {code : UInt8}
      {width : Nat}
      (announces : Announces code width)
      (field : Bytes)
      (missing : field.length < width) :
      IsCutShort (code :: field)
  | measured
      {code : UInt8}
      {width : Nat}
      (announces : Announces code width)
      (field data : Bytes)
      (wide : field.length = width)
      (missing : data.length < LittleEndian.decode field) :
      IsCutShort (code :: (field ++ data))

section Heads

variable {code : UInt8} {width : Nat} {bytes : Bytes}

/-- An opcode is a length, announces one, or means itself. -/
theorem code_cases
    (code : UInt8) :
    code.toNat ≤ 75 ∨ (∃ width, Announces code width) ∨ 0x4f ≤ code := by
  have marked (marker : UInt8) (same : code.toNat = marker.toNat) : code = marker :=
    UInt8.toNat_inj.mp same
  by_cases short : code.toNat ≤ 75
  · exact Or.inl short
  by_cases above : 0x4f ≤ code.toNat
  · exact Or.inr (Or.inr (UInt8.le_iff_toNat_le.mpr above))
  refine Or.inr (Or.inl ?_)
  obtain one | two | four : code.toNat = 76 ∨ code.toNat = 77 ∨ code.toNat = 78 := by omega
  · exact ⟨1, marked Opcode.pushData₁ one ▸ .oneByte⟩
  · exact ⟨2, marked Opcode.pushData₂ two ▸ .twoBytes⟩
  · exact ⟨4, marked Opcode.pushData₄ four ▸ .fourBytes⟩

theorem head?_of_le
    (small : code.toNat ≤ 75) :
    head? code bytes = some (.push code.toNat bytes) := by
  have below : code < Opcode.pushData₁ := UInt8.lt_iff_toNat_lt.mpr (Nat.lt_succ_of_le small)
  rw [head?, if_pos below]

/-- A length is read if there are bytes enough for it. -/
theorem head?_of_announces
    (announces : Announces code width)
    (bytes : Bytes) :
    head? code bytes =
      if width ≤ bytes.length then
        some (.push (LittleEndian.decode (bytes.take width)) (bytes.drop width))
      else none := by
  have field : head? code bytes = lengthField width bytes := by
    cases announces <;> rfl
  rw [field]
  by_cases enough : width ≤ bytes.length
  · simp [lengthField, List.length_take_of_le enough, enough]
  · simp [lengthField, enough, Nat.le_of_not_le enough]
    omega

theorem head?_of_above
    (above : 0x4f ≤ code) :
    head? code bytes = some (.op code bytes) := by
  have value : 79 ≤ code.toNat := UInt8.le_iff_toNat_le.mp above
  have notShort : ¬code < Opcode.pushData₁ := by
    rw [UInt8.lt_iff_toNat_lt]
    exact Nat.not_lt.mpr (Nat.le_trans (by decide) value)
  have other (marker : UInt8) (low : marker.toNat < 79) : code ≠ marker := by
    rintro rfl
    omega
  rw [head?, if_neg notShort, if_neg (other _ (by decide)), if_neg (other _ (by decide)),
    if_neg (other _ (by decide))]

/-- Data are taken if there are bytes enough for them. -/
theorem splitFirst?_of_push
    {length : Nat}
    {rest : Bytes}
    (announced : head? code bytes = some (.push length rest)) :
    splitFirst? code bytes =
      if length ≤ rest.length then some (.push (rest.take length), rest.drop length)
      else none := by
  by_cases enough : length ≤ rest.length
  · simp [splitFirst?, announced, List.length_take_of_le enough, enough]
  · simp [splitFirst?, announced, enough, Nat.le_of_not_le enough]
    omega

end Heads

section Splitting

variable {instruction : Instruction} {code : UInt8} {bytes rest : Bytes}

/-- Whichever encoding a script begins with, splitting takes just this off. -/
theorem IsEncoding.splitFirst?_eq
    (encoding : instruction.IsEncoding (code :: bytes))
    (rest : Bytes) :
    splitFirst? code (bytes ++ rest) = some (instruction, rest) := by
  cases encoding with
  | op _ above => simp [splitFirst?, head?_of_above above]
  | empty =>
      rw [List.nil_append, splitFirst?_of_push (head?_of_le (by decide))]
      simp [Opcode.empty]
  | short data nonempty short =>
      have value : (UInt8.ofNat bytes.length).toNat = bytes.length := by
        rw [UInt8.toNat_ofNat']
        omega
      rw [splitFirst?_of_push (head?_of_le (value.symm ▸ short)), value, if_pos (by simp),
        List.take_left, List.drop_left]
  | measured announces field data wide measures =>
      have head : head? code (field ++ data ++ rest) = some (.push data.length (data ++ rest)) := by
        rw [head?_of_announces announces, if_pos (by simp [wide]),
          List.append_assoc, ← wide, List.take_left, List.drop_left, measures]
      rw [splitFirst?_of_push head, if_pos (by simp), List.take_left, List.drop_left]

/-- What splitting takes off a script is an encoding. -/
theorem exists_isEncoding_of_splitFirst?
    (taken : splitFirst? code bytes = some (instruction, rest)) :
    ∃ piece, instruction.IsEncoding piece ∧ code :: bytes = piece ++ rest := by
  rcases code_cases code with small | ⟨width, announces⟩ | above
  · rw [splitFirst?_of_push (head?_of_le small), Option.ite_none_right_eq_some] at taken
    obtain ⟨enough, taken⟩ := taken
    obtain ⟨rfl, rfl⟩ := Prod.mk.inj (Option.some.inj taken)
    have length : (bytes.take code.toNat).length = code.toNat := List.length_take_of_le enough
    refine ⟨code :: bytes.take code.toNat, ?_, by simp⟩
    by_cases zero : code.toNat = 0
    · have isEmpty : code = Opcode.empty := UInt8.toNat_inj.mp zero
      rw [zero, List.take_zero, isEmpty]
      exact .empty
    · have encoding := IsEncoding.short (bytes.take code.toNat) (by omega) (by omega)
      rwa [length, UInt8.ofNat_toNat] at encoding
  · by_cases enough : width ≤ bytes.length
    · have head := head?_of_announces announces bytes
      rw [if_pos enough] at head
      rw [splitFirst?_of_push head, Option.ite_none_right_eq_some] at taken
      obtain ⟨present, taken⟩ := taken
      obtain ⟨rfl, rfl⟩ := Prod.mk.inj (Option.some.inj taken)
      refine ⟨_, .measured announces (bytes.take width) _ (List.length_take_of_le enough)
        (List.length_take_of_le present).symm, ?_⟩
      rw [List.cons_append, List.append_assoc, List.take_append_drop, List.take_append_drop]
    · have head := head?_of_announces announces bytes
      rw [if_neg enough] at head
      rw [splitFirst?, head] at taken
      contradiction
  · rw [splitFirst?, head?_of_above above] at taken
    obtain ⟨rfl, rfl⟩ := Prod.mk.inj (Option.some.inj taken)
    exact ⟨[code], .op code above, rfl⟩

/-- Splitting fails where a push is cut short. -/
theorem IsCutShort.splitFirst?_eq
    (cut : IsCutShort (code :: bytes)) :
    splitFirst? code bytes = none := by
  cases cut with
  | short _ _ small missing =>
      rw [splitFirst?_of_push (head?_of_le small), if_neg (Nat.not_le.mpr missing)]
  | field announces _ missing =>
      rw [splitFirst?, head?_of_announces announces,
        if_neg (Nat.not_le.mpr missing)]
  | measured announces field data wide missing =>
      have head : head? code (field ++ data) =
          some (.push (LittleEndian.decode field) data) := by
        rw [head?_of_announces announces, if_pos (by simp [wide]), ← wide,
          List.take_left, List.drop_left]
      rw [splitFirst?_of_push head, if_neg (Nat.not_le.mpr missing)]

/-- Splitting fails only there. -/
theorem isCutShort_of_splitFirst?
    (failed : splitFirst? code bytes = none) :
    IsCutShort (code :: bytes) := by
  rcases code_cases code with small | ⟨width, announces⟩ | above
  · rw [splitFirst?_of_push (head?_of_le small)] at failed
    exact .short code bytes small (by simpa using failed)
  · by_cases enough : width ≤ bytes.length
    · have head := head?_of_announces announces bytes
      rw [if_pos enough] at head
      rw [splitFirst?_of_push head] at failed
      have cut := IsCutShort.measured announces (bytes.take width) (bytes.drop width)
        (List.length_take_of_le enough) (by simpa using failed)
      rwa [List.take_append_drop] at cut
    · exact .field announces bytes (Nat.not_le.mp enough)
  · rw [splitFirst?, head?_of_above above] at failed
    contradiction

/-- No encoding is empty. -/
theorem IsEncoding.exists_cons
    {piece : Bytes}
    (encoding : instruction.IsEncoding piece) :
    ∃ code bytes, piece = code :: bytes := by
  cases encoding <;> exact ⟨_, _, rfl⟩

end Splitting

section Shortest

variable {instruction : Instruction} {piece : Bytes}

/-- What has an encoding tells what it is. -/
theorem IsEncoding.isReadable
    (encoding : instruction.IsEncoding piece) :
    instruction.IsReadable := by
  cases encoding with
  | op code above =>
      exact UInt8.lt_iff_toNat_lt.mpr (UInt8.le_iff_toNat_le.mp above)
  | empty => exact Nat.two_pow_pos 32
  | short data _ short => exact Nat.lt_of_le_of_lt short (by decide)
  | measured announces field data wide measures =>
      have bound := LittleEndian.decode_lt field
      rw [measures, wide] at bound
      refine Nat.lt_of_lt_of_le bound ?_
      cases announces <;> decide

/-- What tells what it is, is encoded as it is compiled. -/
theorem isEncoding_encode
    (readable : instruction.IsReadable) :
    instruction.IsEncoding instruction.encode := by
  obtain ⟨code, bytes, split, taken⟩ := instruction.splitFirst?_encode [] readable
  obtain ⟨piece, encoding, equal⟩ := exists_isEncoding_of_splitFirst? taken
  rw [← split, List.append_nil, List.append_nil] at equal
  rwa [equal]

/-- A length that fits a field takes no more than the field and its opcode. -/
theorem length_pushHead_le
    {code : UInt8}
    {width length : Nat}
    (announces : Announces code width)
    (fits : length < Nat.pow 256 width) :
    (pushHead length).length ≤ width + 1 := by
  unfold pushHead
  cases announces with
  | oneByte =>
      have small : length < UInt8.size := fits
      split_ifs <;> simp
  | twoBytes =>
      have small : length < UInt16.size := fits
      split_ifs <;> simp
  | fourBytes => split_ifs <;> simp

/-- A length that takes as much as a field and its opcode is written in this
field. -/
theorem pushHead_of_length_eq
    {code : UInt8}
    {width length : Nat}
    (announces : Announces code width)
    (equal : (pushHead length).length = width + 1) :
    pushHead length = code :: LittleEndian.encode width length := by
  unfold pushHead at equal ⊢
  cases announces <;> split_ifs at equal ⊢ <;> simp at equal <;> rfl

/-- Nothing is shorter than what is compiled, and nothing else is as short. -/
theorem IsEncoding.encode_le
    (encoding : instruction.IsEncoding piece) :
    instruction.encode.length ≤ piece.length ∧
      (instruction.encode.length = piece.length → instruction.encode = piece) := by
  cases encoding with
  | op code above => exact ⟨Nat.le_refl _, fun _ => rfl⟩
  | empty => exact ⟨Nat.le_refl _, fun _ => rfl⟩
  | short data _ short =>
      have plain : (push data).encode = UInt8.ofNat data.length :: data := by
        rw [encode, pushHead, if_pos (Nat.lt_succ_of_le short), List.singleton_append]
      rw [plain]
      exact ⟨Nat.le_refl _, fun _ => rfl⟩
  | @measured code width announces field data wide measures =>
      have fits : data.length < Nat.pow 256 width := by
        rw [← measures, ← wide]
        exact LittleEndian.decode_lt field
      have head := length_pushHead_le announces fits
      simp only [encode, List.length_append, List.length_cons, wide]
      refine ⟨by omega, fun equal => ?_⟩
      rw [pushHead_of_length_eq announces (by omega), ← measures, ← wide,
        LittleEndian.encode_decode, List.cons_append]

/-- The shortest encoding is the compiled one. -/
theorem IsEncoding.isShortest_iff
    (encoding : instruction.IsEncoding piece) :
    instruction.IsShortest piece ↔ instruction.encode = piece := by
  constructor
  · intro shortest
    have least := shortest.le _ (isEncoding_encode encoding.isReadable)
    exact encoding.encode_le.2 (Nat.le_antisymm encoding.encode_le.1 least)
  · rintro rfl
    exact ⟨encoding, fun other isEncoding => isEncoding.encode_le.1⟩

end Shortest

end Instruction

namespace Program

/-- Whether pieces are encodings of the instructions of a script in turn. -/
def IsWrittenAs
    (program : Program)
    (pieces : List Bytes) : Prop :=
  List.Forall₂ Instruction.IsEncoding program pieces

section Splitting

/-- Any limit that leaves a place for every byte is as good as another. -/
theorem splitWithin_eq
    {limit : Nat}
    {bytes : Bytes}
    (room : bytes.length ≤ limit) :
    splitWithin limit bytes = decompile bytes := by
  have any (limit other : Nat) (bytes : Bytes) (room : bytes.length ≤ limit)
      (otherRoom : bytes.length ≤ other) : splitWithin limit bytes = splitWithin other bytes := by
    induction limit generalizing other bytes with
    | zero =>
        obtain rfl := List.eq_nil_of_length_eq_zero (Nat.le_zero.mp room)
        simp [splitWithin]
    | succ limit inductionHypothesis =>
        cases bytes with
        | nil => simp [splitWithin]
        | cons code bytes =>
            obtain ⟨other, rfl⟩ : ∃ smaller, other = smaller + 1 :=
              Nat.exists_eq_add_one.mpr (Nat.zero_lt_of_lt otherRoom)
            rw [splitWithin, splitWithin]
            cases taken : Instruction.splitFirst? code bytes with
            | none => rfl
            | some first =>
                obtain ⟨instruction, rest⟩ := first
                obtain ⟨piece, encoding, equal⟩ :=
                  Instruction.exists_isEncoding_of_splitFirst? taken
                obtain ⟨_, inner, rfl⟩ := encoding.exists_cons
                have shorter := congrArg List.length equal
                simp only [List.length_cons, List.cons_append, List.length_append]
                  at shorter room otherRoom
                dsimp only
                rw [inductionHypothesis other rest (by omega) (by omega)]
  exact any limit bytes.length bytes room (Nat.le_refl _)

/-- Splitting goes on behind the first instruction. -/
theorem decompile_cons
    (code : UInt8)
    (bytes : Bytes) :
    decompile (code :: bytes) =
      (Instruction.splitFirst? code bytes).bind fun first =>
        (decompile first.2).map (first.1 :: ·) := by
  change splitWithin (bytes.length + 1) (code :: bytes) = _
  rw [splitWithin]
  cases taken : Instruction.splitFirst? code bytes with
  | none => rfl
  | some first =>
      obtain ⟨instruction, rest⟩ := first
      obtain ⟨piece, encoding, equal⟩ := Instruction.exists_isEncoding_of_splitFirst? taken
      obtain ⟨_, inner, rfl⟩ := encoding.exists_cons
      have shorter := congrArg List.length equal
      simp only [List.length_cons, List.cons_append, List.length_append] at shorter
      dsimp only [Option.bind_some]
      rw [splitWithin_eq (by omega)]

/-- Whatever a row of encodings is followed by is split on its own. -/
theorem IsWrittenAs.decompile_append
    {program : Program}
    {pieces : List Bytes}
    (written : program.IsWrittenAs pieces)
    (rest : Bytes) :
    decompile (pieces.flatten ++ rest) = (decompile rest).map (program ++ ·) := by
  induction written with
  | nil => simp
  | @cons instruction piece program pieces encoding _ inductionHypothesis =>
      obtain ⟨code, bytes, rfl⟩ := encoding.exists_cons
      rw [List.flatten_cons, List.append_assoc, List.cons_append, decompile_cons,
        encoding.splitFirst?_eq, Option.bind_some, inductionHypothesis, Option.map_map]
      rfl

theorem IsWrittenAs.decompile_eq
    {program : Program}
    {pieces : List Bytes}
    (written : program.IsWrittenAs pieces) :
    decompile pieces.flatten = some program := by
  have split := written.decompile_append []
  rw [List.append_nil] at split
  simpa [decompile, splitWithin] using split

/-- A push that is cut short is not split, whatever stands before it. -/
theorem IsWrittenAs.decompile_append_of_isCutShort
    {program : Program}
    {pieces : List Bytes}
    {rest : Bytes}
    (written : program.IsWrittenAs pieces)
    (cut : Instruction.IsCutShort rest) :
    decompile (pieces.flatten ++ rest) = none := by
  rw [written.decompile_append]
  obtain ⟨code, bytes, rfl⟩ : ∃ code bytes, rest = code :: bytes := by
    cases cut <;> exact ⟨_, _, rfl⟩
  rw [decompile_cons, cut.splitFirst?_eq]
  rfl

/-- Every script is a row of encodings, or such a row and a push that is cut
short. -/
theorem exists_isWrittenAs
    (bytes : Bytes) :
    (∃ program pieces, IsWrittenAs program pieces ∧ pieces.flatten = bytes) ∨
      ∃ program pieces rest, IsWrittenAs program pieces ∧ Instruction.IsCutShort rest ∧
        bytes = pieces.flatten ++ rest := by
  induction length : bytes.length using Nat.strongRecOn generalizing bytes with
  | _ length inductionHypothesis =>
      subst length
      cases bytes with
      | nil => exact Or.inl ⟨[], [], .nil, rfl⟩
      | cons code bytes =>
          cases taken : Instruction.splitFirst? code bytes with
          | none =>
              exact Or.inr ⟨[], [], _, .nil, Instruction.isCutShort_of_splitFirst? taken, rfl⟩
          | some first =>
              obtain ⟨instruction, rest⟩ := first
              obtain ⟨piece, encoding, equal⟩ :=
                Instruction.exists_isEncoding_of_splitFirst? taken
              have shorter : rest.length < (code :: bytes).length := by
                obtain ⟨_, inner, rfl⟩ := encoding.exists_cons
                rw [equal, List.length_append, List.length_cons]
                omega
              rcases inductionHypothesis _ shorter rest rfl with
                ⟨program, pieces, written, rfl⟩ | ⟨program, pieces, last, written, cut, rfl⟩
              · exact Or.inl ⟨instruction :: program, piece :: pieces,
                  .cons encoding written, equal.symm⟩
              · refine Or.inr ⟨instruction :: program, piece :: pieces, last,
                  .cons encoding written, cut, ?_⟩
                rw [equal, List.flatten_cons, List.append_assoc]

/-- A script splits into a program exactly if it is a row of encodings of its
instructions. -/
theorem decompile_eq_some_iff
    (bytes : Bytes)
    (program : Program) :
    decompile bytes = some program ↔
      ∃ pieces, program.IsWrittenAs pieces ∧ pieces.flatten = bytes := by
  constructor
  · intro split
    rcases exists_isWrittenAs bytes with
      ⟨found, pieces, written, rfl⟩ | ⟨found, pieces, rest, written, cut, rfl⟩
    · rw [written.decompile_eq] at split
      exact ⟨pieces, Option.some.inj split ▸ written, rfl⟩
    · rw [written.decompile_append_of_isCutShort cut] at split
      contradiction
  · rintro ⟨pieces, written, rfl⟩
    exact written.decompile_eq

/-- A script does not split exactly if a push runs past its end. -/
theorem decompile_eq_none_iff
    (bytes : Bytes) :
    decompile bytes = none ↔
      ∃ program pieces rest, IsWrittenAs program pieces ∧ Instruction.IsCutShort rest ∧
        bytes = pieces.flatten ++ rest := by
  constructor
  · intro failed
    rcases exists_isWrittenAs bytes with ⟨found, pieces, written, rfl⟩ | cut
    · rw [written.decompile_eq] at failed
      contradiction
    · exact cut
  · rintro ⟨program, pieces, rest, written, cut, rfl⟩
    exact written.decompile_append_of_isCutShort cut

/-- Every instruction that is encoded tells what it is. -/
theorem IsWrittenAs.isReadable
    {program : Program}
    {pieces : List Bytes}
    (written : program.IsWrittenAs pieces) :
    ∀ instruction ∈ program, instruction.IsReadable := by
  induction written with
  | nil => simp
  | cons encoding _ inductionHypothesis =>
      exact List.forall_mem_cons.mpr ⟨encoding.isReadable, inductionHypothesis⟩

end Splitting

section Shortest

/-- Nothing is shorter than a compiled script, and whatever splits alike and
is as short is this script. -/
theorem IsWrittenAs.compile_le
    {program : Program}
    {pieces : List Bytes}
    (written : program.IsWrittenAs pieces) :
    program.compile.length ≤ pieces.flatten.length ∧
      (program.compile.length = pieces.flatten.length →
        List.Forall₂ Instruction.IsShortest program pieces) := by
  induction written with
  | nil => exact ⟨Nat.le_refl _, fun _ => .nil⟩
  | @cons instruction piece program pieces encoding _ inductionHypothesis =>
      have ⟨first, firstOnly⟩ := encoding.encode_le
      have ⟨later, laterOnly⟩ := inductionHypothesis
      simp only [compile_cons, List.flatten_cons, List.length_append]
      refine ⟨Nat.add_le_add first later, fun equal => .cons ?_ (laterOnly (by omega))⟩
      exact encoding.isShortest_iff.mpr (firstOnly (by omega))

/-- Compiling a program gives a script that is made up of encodings exactly if
all of them are the shortest. -/
theorem IsWrittenAs.compile_eq_iff
    {program : Program}
    {pieces : List Bytes}
    (written : program.IsWrittenAs pieces) :
    program.compile = pieces.flatten ↔ List.Forall₂ Instruction.IsShortest program pieces := by
  constructor
  · intro equal
    exact written.compile_le.2 (congrArg List.length equal)
  · intro shortest
    clear written
    induction shortest with
    | nil => rfl
    | cons first _ inductionHypothesis =>
        rw [compile_cons, List.flatten_cons, inductionHypothesis,
          first.encoding.isShortest_iff.mp first]

/-- A program whose lengths can be told splits off its compiled script exactly
if no opcode looks like a push. -/
theorem decompile_compile_iff
    (program : Program)
    (lengths : ∀ data, .push data ∈ program → data.length < UInt32.size) :
    decompile program.compile = some program ↔ ∀ code, .op code ∈ program → 0x4f ≤ code := by
  have above (code : UInt8) : Opcode.pushData₄ < code ↔ 0x4f ≤ code := by
    rw [UInt8.lt_iff_toNat_lt, UInt8.le_iff_toNat_le]
    exact Nat.succ_le_iff.symm
  constructor
  · intro split code present
    obtain ⟨pieces, written, _⟩ := (decompile_eq_some_iff _ _).mp split
    exact (above code).mp (written.isReadable _ present)
  · intro opcodes
    refine program.decompile_compile fun instruction present => ?_
    cases instruction with
    | push data => exact lengths data present
    | op code => exact (above code).mpr (opcodes code present)

/-- Byte code is split exactly.  A script gives a program if it is a row of
encodings of the instructions, and none if a push runs past its end; a program
is got back from what it compiles to if its opcodes are none of those of
pushes; and compiling what was split gives the script again, unless it gives
a shorter one because an encoding was not the shortest. -/
theorem decompile_exact
    : (∀ bytes program, decompile bytes = some program ↔
        ∃ pieces, program.IsWrittenAs pieces ∧ pieces.flatten = bytes) ∧
      (∀ bytes, decompile bytes = none ↔
        ∃ program pieces rest, IsWrittenAs program pieces ∧ Instruction.IsCutShort rest ∧
          bytes = pieces.flatten ++ rest) ∧
      (∀ program : Program, (∀ data, .push data ∈ program → data.length < UInt32.size) →
        (decompile program.compile = some program ↔
          ∀ code, .op code ∈ program → 0x4f ≤ code)) ∧
      (∀ bytes program, decompile bytes = some program →
        program.compile.length ≤ bytes.length ∧
        ∀ pieces, program.IsWrittenAs pieces → pieces.flatten = bytes →
          (program.compile = bytes ↔
            List.Forall₂ Instruction.IsShortest program pieces)) := by
  refine ⟨decompile_eq_some_iff, decompile_eq_none_iff, decompile_compile_iff,
    fun bytes program split => ⟨?_, ?_⟩⟩
  · obtain ⟨pieces, written, rfl⟩ := (decompile_eq_some_iff bytes program).mp split
    exact written.compile_le.1
  · rintro pieces written rfl
    exact written.compile_eq_iff

/-- A byte may be pushed behind a length field of its own, which takes one
byte more than it needs. -/
theorem decompile_exact_measuredByte
    : decompile [0x4c, 1, 0xff, 0x75] = some [.push [0xff], .op 0x75] ∧
      (∃ pieces, IsWrittenAs [.push [0xff], .op 0x75] pieces ∧
        pieces.flatten = [0x4c, 1, 0xff, 0x75]) ∧
      decompile (compile [.push [0xff], .op 0x75]) = some [.push [0xff], .op 0x75] ∧
      (compile [.push [0xff], .op 0x75]).length ≤ 4 ∧
      ¬List.Forall₂ Instruction.IsShortest [.push [0xff], .op 0x75]
        [[0x4c, 1, 0xff], [0x75]] := by
  obtain ⟨splits, _, compiles, canonical⟩ := decompile_exact
  have split : decompile [0x4c, 1, 0xff, 0x75] = some [.push [0xff], .op 0x75] := by decide
  have written : IsWrittenAs [.push [0xff], .op 0x75] [[0x4c, 1, 0xff], [0x75]] :=
    .cons (.measured .oneByte [1] [0xff] rfl (by decide)) (.cons (.op 0x75 (by decide)) .nil)
  obtain ⟨le, shortest⟩ := canonical _ _ split
  refine ⟨split, (splits _ _).mp split, (compiles _ ?_).mpr ?_, le, ?_⟩
  · simp [UInt32.size]
  · simp
  · rw [← shortest _ written rfl]
    decide

end Shortest

end Program
end WorkMarket
