import WorkMarket.Proofs.Script.Encodings
import WorkMarket.Proofs.Script.UnlockingRoundTrip

/-!
# Which bytes redeem work

The template of an unlocking script leaves no instruction out and normalizes
none.  So bytes denote a script that redeems work exactly if they split into the
instructions of this script, whose key has one of two sizes and which names a
miner only if it redeems a bounty.  Of these scripts, and of the absent one,
nothing is lost when they are written and read; of every other something is.
-/

namespace WorkMarket
namespace UnlockingScript

open Cursor (between)

/-- A key that is taken has one of the two sizes. -/
theorem of_keyPush_between
    {taken rest : Program}
    {finish : Cursor}
    {key : Bytes}
    (succeeds :
      (Matcher.pushOfSize PublicKey.compressedSize <|> Matcher.pushOfSize PublicKey.fullSize)
        (between taken rest) = (some key, finish)) :
    (key.length = PublicKey.compressedSize ∨ key.length = PublicKey.fullSize) ∧
      ∃ after, rest = .push key :: after ∧ finish = between (taken ++ [.push key]) after := by
  rcases Matcher.of_orElse_eq succeeds with compressed | ⟨place, refused, full⟩
  · obtain ⟨sized, pushed⟩ := Matcher.of_pushOfSize_between compressed
    exact ⟨Or.inl sized, pushed⟩
  · obtain rfl := Matcher.pushWhere_of_none refused
    obtain ⟨sized, pushed⟩ := Matcher.of_pushOfSize_between full
    exact ⟨Or.inr sized, pushed⟩

/-- The template answers with a script exactly if the program is that of the
script, which redeems something and is regular. -/
theorem answer_template_eq_some_iff
    (program : Program)
    (script : UnlockingScript) :
    template.answer program = some script ↔
      program = script.program ∧ script.isValid = true ∧ script.IsRegular := by
  constructor
  · intro found
    obtain ⟨finish, succeeds⟩ :
        ∃ finish, template (between [] program) = (some script, finish) :=
      ⟨_, Prod.ext found rfl⟩
    unfold template at succeeds
    obtain ⟨signature, _, pushed, succeeds⟩ := Matcher.exists_of_bind_eq succeeds
    obtain ⟨_, rfl, rfl⟩ := Matcher.of_push_between pushed
    obtain ⟨key, _, pushed, succeeds⟩ := Matcher.exists_of_bind_eq succeeds
    obtain ⟨keySized, _, rfl, rfl⟩ := of_keyPush_between pushed
    obtain ⟨nonce, _, pushed, succeeds⟩ := Matcher.exists_of_bind_eq succeeds
    obtain ⟨nonceSized, _, rfl, rfl⟩ := Matcher.of_pushOfSize_between pushed
    obtain ⟨timestamp, _, pushed, succeeds⟩ := Matcher.exists_of_bind_eq succeeds
    obtain ⟨timestampSized, _, rfl, rfl⟩ := Matcher.of_pushOfSize_between pushed
    obtain ⟨extraNonce₂, _, pushed, succeeds⟩ := Matcher.exists_of_bind_eq succeeds
    obtain ⟨extraNonce₂Sized, _, rfl, rfl⟩ := Matcher.of_pushOfSize_between pushed
    obtain ⟨extraNonce₁, _, pushed, succeeds⟩ := Matcher.exists_of_bind_eq succeeds
    obtain ⟨extraNonce₁Sized, _, rfl, rfl⟩ := Matcher.of_pushOfSize_between pushed
    obtain ⟨address?, _, bound, succeeds⟩ := Matcher.exists_of_bind_eq succeeds
    obtain ⟨addressSized, _, rfl, rfl⟩ := Matcher.of_optionalPushOfSize_between bound
    obtain ⟨_, _, ended, made⟩ := Matcher.exists_of_bind_eq succeeds
    obtain rfl := Matcher.of_atEnd_between ended
    have fields : ofFields? signature key nonce timestamp extraNonce₂ extraNonce₁ address? =
        some script := congrArg Prod.fst made
    have nonceBytes := LittleEndian.ofUInt32_toUInt32 nonce nonceSized
    have timestampBytes := LittleEndian.ofUInt32_toUInt32 timestamp timestampSized
    have extraNonce₂Bytes := LittleEndian.ofUInt64_toUInt64 extraNonce₂ extraNonce₂Sized
    have extraNonce₁Bytes := LittleEndian.ofUInt32_toUInt32 extraNonce₁ extraNonce₁Sized
    cases address? with
    | none =>
        obtain rfl := Option.some.inj fields
        refine ⟨?_, rfl, keySized, fun _ => rfl⟩
        simp [UnlockingScript.program, addressPush, nonceBytes, timestampBytes,
          extraNonce₂Bytes, extraNonce₁Bytes]
    | some address =>
        have sized := addressSized address rfl
        rw [ofFields?, FixedBytes.ofList?, dif_pos sized] at fields
        obtain rfl := Option.some.inj fields
        refine ⟨?_, rfl, keySized, fun other => absurd rfl other⟩
        simp [UnlockingScript.program, addressPush, nonceBytes, timestampBytes,
          extraNonce₂Bytes, extraNonce₁Bytes]
  · rintro ⟨rfl, valid, regular⟩
    rw [script.answer_template_program regular, script.ofFields?_fields valid regular]

/-- Bytes denote a script that redeems work exactly if they split into its
instructions and the script is regular. -/
theorem read_eq_iff_of_isValid
    {script : UnlockingScript}
    (valid : script.isValid = true)
    (bytes : Bytes) :
    read bytes = script ↔ Program.decompile bytes = some script.program ∧ script.IsRegular := by
  unfold read
  constructor
  · intro denoted
    cases found : read? bytes with
    | none =>
        rw [found, Option.getD_none] at denoted
        rw [← denoted] at valid
        contradiction
    | some other =>
        obtain rfl : other = script := by rwa [found] at denoted
        obtain ⟨program, split, answered⟩ := Option.bind_eq_some_iff.mp found
        obtain ⟨rfl, _, regular⟩ := (answer_template_eq_some_iff program other).mp answered
        exact ⟨split, regular⟩
  · rintro ⟨split, regular⟩
    have answered := (answer_template_eq_some_iff script.program script).mpr ⟨rfl, valid, regular⟩
    rw [read?, split, Option.bind_some, answered, Option.getD_some]

/-- What redeems no work is written as nothing, which denotes the absent
script. -/
theorem read_write_of_invalid
    {script : UnlockingScript}
    (invalid : script.isValid = false) :
    read script.write = absent := by
  rw [write, invalid]
  rfl

/-- What redeems work survives writing and reading exactly if it is regular and
the length of its signature can be told. -/
theorem read_write_eq_iff_isRegular
    {script : UnlockingScript}
    (valid : script.isValid = true) :
    read script.write = script ↔
      script.IsRegular ∧ script.signature.bytes.length < UInt32.size := by
  constructor
  · intro survived
    obtain ⟨split, regular⟩ := (read_eq_iff_of_isValid valid _).mp survived
    obtain ⟨pieces, written, _⟩ := (Program.decompile_eq_some_iff _ _).mp split
    have signed : Instruction.push script.signature.bytes ∈ script.program := by
      simp [program]
    exact ⟨regular, written.isReadable _ signed⟩
  · rintro ⟨regular, fits⟩
    exact read_write_of_isRegular script valid regular fits

theorem isValid_iff
    (script : UnlockingScript) :
    script.isValid = true ↔ script.kind = .bounty ∨ script.kind = .contract := by
  unfold isValid
  cases script.kind <;> decide

/-- A script that redeems a bounty may name any miner, and one that redeems a
contract none. -/
theorem isRegular_iff
    {script : UnlockingScript}
    (redeems : script.kind = .bounty ∨ script.kind = .contract) :
    script.IsRegular ↔
      (script.publicKey.bytes.length = 33 ∨ script.publicKey.bytes.length = 65) ∧
        (script.kind = .contract → script.minerAddress = Address.absent) := by
  constructor
  · intro regular
    refine ⟨regular.keySize, fun isContract => regular.address_eq ?_⟩
    rw [isContract]
    decide
  · rintro ⟨keySize, unnamed⟩
    exact ⟨keySize, fun other => unnamed (redeems.resolve_left other)⟩

/-- Exactly these scripts read back as they were written, whatever their fields:
the absent one, and those that redeem a bounty or a contract with a key of
thirty-three or sixty-five bytes, where that of a contract names no miner and
four bytes can measure the signature. -/
theorem read_write_eq_iff
    (script : UnlockingScript) :
    read script.write = script ↔
      script = absent ∨
        (script.kind = .bounty ∨ script.kind = .contract) ∧
          (script.publicKey.bytes.length = 33 ∨ script.publicKey.bytes.length = 65) ∧
          (script.kind = .contract → script.minerAddress = Address.absent) ∧
          script.signature.bytes.length < UInt32.size := by
  by_cases redeems : script.kind = .bounty ∨ script.kind = .contract
  · have valid := script.isValid_iff.mpr redeems
    have present : script ≠ absent := by
      rintro rfl
      contradiction
    rw [read_write_eq_iff_isRegular valid, isRegular_iff redeems, or_iff_right present,
      and_iff_right redeems, and_assoc]
  · have invalid : script.isValid = false :=
      Bool.eq_false_iff.mpr fun valid => redeems (script.isValid_iff.mp valid)
    rw [read_write_of_invalid invalid, or_iff_left fun survives => redeems survives.1]
    exact eq_comm

end UnlockingScript
end WorkMarket
