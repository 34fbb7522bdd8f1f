import Mathlib.Tactic.SplitIfs
import WorkMarket.Script.Verification

/-!
# Byte code splits back into its instructions

A push announces its length in one of five forms.  Whatever form the length
takes, reading the announcement gives the length and leaves the data, so that
`splitFirst?` takes exactly one instruction off a compiled script.  By
induction on the program `decompile` is a left inverse of `compile`, provided
that no opcode looks like a push and every length fits four bytes.
-/

namespace WorkMarket
namespace Instruction

/-- Whether the bytes of an instruction tell what it is: the length of a push
fits four bytes, and an opcode lies above those that announce a push. -/
def IsReadable : Instruction → Prop
  | push data => data.length < UInt32.size
  | op code => Opcode.pushData₄ < code

instance : DecidablePred IsReadable
  | push data => inferInstanceAs (Decidable (data.length < UInt32.size))
  | op code => inferInstanceAs (Decidable (Opcode.pushData₄ < code))

/-- A length field holds the length that was written into it. -/
theorem lengthField_encode
    (width length : Nat)
    (rest : Bytes)
    (fits : length < Nat.pow 256 width) :
    lengthField width (LittleEndian.encode width length ++ rest) = some (.push length rest) := by
  have field : (LittleEndian.encode width length ++ rest).take width =
      LittleEndian.encode width length :=
    List.take_left' (LittleEndian.length_encode width length)
  have behind : (LittleEndian.encode width length ++ rest).drop width = rest :=
    List.drop_left' (LittleEndian.length_encode width length)
  unfold lengthField
  simp only [field, behind, LittleEndian.length_encode, if_true]
  rw [LittleEndian.decode_encode, Nat.mod_eq_of_lt fits]

/-- The announcement of a push is read back, in whichever form it was
written. -/
theorem head?_pushHead
    (length : Nat)
    (rest : Bytes)
    (fits : length < UInt32.size) :
    ∃ code field, pushHead length = code :: field ∧
      head? code (field ++ rest) = some (.push length rest) := by
  unfold pushHead
  split_ifs with plain oneByte twoBytes
  · refine ⟨UInt8.ofNat length, [], rfl, ?_⟩
    have value : (UInt8.ofNat length).toNat = length := by
      rw [UInt8.toNat_ofNat']
      omega
    have below : UInt8.ofNat length < Opcode.pushData₁ := by
      rw [UInt8.lt_iff_toNat_lt, value]
      exact plain
    simp [head?, below, value]
  · refine ⟨Opcode.pushData₁, [UInt8.ofNat length], rfl, ?_⟩
    exact lengthField_encode 1 length rest oneByte
  · refine ⟨Opcode.pushData₂, LittleEndian.encode 2 length, rfl, ?_⟩
    exact lengthField_encode 2 length rest twoBytes
  · refine ⟨Opcode.pushData₄, LittleEndian.encode 4 length, rfl, ?_⟩
    exact lengthField_encode 4 length rest fits

/-- Splitting takes exactly the first instruction off a script. -/
theorem splitFirst?_encode
    (instruction : Instruction)
    (rest : Bytes)
    (readable : instruction.IsReadable) :
    ∃ code bytes, instruction.encode ++ rest = code :: bytes ∧
      splitFirst? code bytes = some (instruction, rest) := by
  cases instruction with
  | push data =>
      obtain ⟨code, field, headEqual, headRead⟩ :=
        head?_pushHead data.length (data ++ rest) readable
      refine ⟨code, field ++ (data ++ rest), by simp [encode, headEqual], ?_⟩
      simp [splitFirst?, headRead]
  | op code =>
      refine ⟨code, rest, rfl, ?_⟩
      have above : Opcode.pushData₄.toNat < code.toNat := UInt8.lt_iff_toNat_lt.mp readable
      have notShort : ¬code < Opcode.pushData₁ := by
        rw [UInt8.lt_iff_toNat_lt]
        exact Nat.not_lt.mpr (Nat.le_trans (by decide) (Nat.le_of_lt above))
      have notField (marker : UInt8) (low : marker.toNat ≤ Opcode.pushData₄.toNat) :
          code ≠ marker := by
        intro equal
        subst equal
        omega
      simp [splitFirst?, head?, notShort, notField Opcode.pushData₁ (by decide),
        notField Opcode.pushData₂ (by decide), notField Opcode.pushData₄ (by decide)]

/-- Every instruction takes at least a byte. -/
theorem length_encode_pos
    (instruction : Instruction) :
    0 < instruction.encode.length := by
  cases instruction with
  | push data =>
      rw [encode, List.length_append, pushHead]
      refine Nat.add_pos_left ?_ data.length
      split_ifs <;> simp
  | op code => exact Nat.one_pos

end Instruction

namespace Program

/-- A script has no more instructions than bytes. -/
theorem length_le_length_compile
    (program : Program) :
    program.length ≤ program.compile.length := by
  induction program with
  | nil => exact Nat.le_refl 0
  | cons instruction rest inductionHypothesis =>
      have positive := instruction.length_encode_pos
      rw [compile_cons, List.length_append, List.length_cons]
      omega

/-- Splitting a compiled script gives its instructions back, given a limit that
leaves room for them. -/
theorem splitWithin_compile
    (program : Program)
    (limit : Nat)
    (room : program.length ≤ limit)
    (readable : ∀ instruction ∈ program, instruction.IsReadable) :
    splitWithin limit program.compile = some program := by
  induction program generalizing limit with
  | nil => simp [splitWithin]
  | cons instruction rest inductionHypothesis =>
      obtain ⟨limit, rfl⟩ : ∃ smaller, limit = smaller + 1 :=
        Nat.exists_eq_add_one.mpr (Nat.zero_lt_of_lt room)
      obtain ⟨code, bytes, split, taken⟩ := instruction.splitFirst?_encode (compile rest)
        (readable instruction List.mem_cons_self)
      have remaining := inductionHypothesis limit (Nat.le_of_succ_le_succ room)
        fun other present => readable other (List.mem_cons_of_mem _ present)
      rw [compile_cons, split, splitWithin]
      simp [taken, remaining]

/-- Decompiling is a left inverse of compiling. -/
theorem decompile_compile
    (program : Program)
    (readable : ∀ instruction ∈ program, instruction.IsReadable) :
    decompile program.compile = some program :=
  splitWithin_compile program _ program.length_le_length_compile readable

end Program

/-- No opcode of the verification program looks like a push. -/
theorem Verification.isReadable_of_mem
    (instruction : Instruction)
    (present : instruction ∈ Verification.program) :
    instruction.IsReadable := by
  revert instruction
  decide

end WorkMarket
