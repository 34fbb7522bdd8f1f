import Mathlib.Algebra.Ring.Nat
import Mathlib.Data.List.Induction
import WorkMarket.Pow.Target

/-!
# What is read as a target

Eight digits of either case, perhaps behind `0x`, are read as the target that is
written with them in lower case.  The reader counts the bytes of a text before it
looks for a sign, so that a plus sign before seven digits takes the place of an
eighth.  Those texts apart, nothing else is read, and what is written is read back.
-/

namespace WorkMarket
namespace Text

/-- The digits of either case. -/
def IsHexDigit
    (character : Char) : Prop :=
  ('0' ≤ character ∧ character ≤ '9') ∨ ('a' ≤ character ∧ character ≤ 'f') ∨
    ('A' ≤ character ∧ character ≤ 'F')

instance (character : Char) : Decidable (IsHexDigit character) :=
  inferInstanceAs (Decidable (_ ∨ _ ∨ _))

/-- Digits are among the first characters. -/
theorem IsHexDigit.toNat_lt
    {character : Char}
    (digit : IsHexDigit character) :
    character.toNat < 103 := by
  simp only [IsHexDigit, Char.le_def, UInt32.le_iff_toNat_le] at digit
  change (48 ≤ character.toNat ∧ character.toNat ≤ 57) ∨
    (97 ≤ character.toNat ∧ character.toNat ≤ 102) ∨
      (65 ≤ character.toNat ∧ character.toNat ≤ 70) at digit
  omega

/-- A digit is one byte and has a value, which is written with it in lower case. -/
theorem IsHexDigit.exists_hexValue?
    {character : Char}
    (digit : IsHexDigit character) :
    ∃ value < 16, hexValue? character = some value ∧
      Nat.digitChar value = character.toLower ∧ character.utf8Size = 1 := by
  have each : ∀ code < 103, IsHexDigit (Char.ofNat code) →
      ∃ value < 16, hexValue? (Char.ofNat code) = some value ∧
        Nat.digitChar value = (Char.ofNat code).toLower ∧ (Char.ofNat code).utf8Size = 1 := by
    decide
  have found := each character.toNat digit.toNat_lt
  rw [Char.ofNat_toNat] at found
  exact found digit

theorem IsHexDigit.utf8Size_eq
    {character : Char}
    (digit : IsHexDigit character) :
    character.utf8Size = 1 := by
  obtain ⟨_, _, _, _, size⟩ := digit.exists_hexValue?
  exact size

theorem isHexDigit_of_hexValue?
    {character : Char}
    {value : Nat}
    (found : hexValue? character = some value) :
    IsHexDigit character := by
  unfold hexValue? at found
  split at found
  · rename_i decimal
    exact Or.inl decimal
  · split at found
    · rename_i lower
      exact Or.inr (Or.inl lower)
    · split at found
      · rename_i upper
        exact Or.inr (Or.inr upper)
      · contradiction

/-- What is written for a value is the digit of that value. -/
theorem hexValue?_digitChar
    {value : Nat}
    (small : value < 16) :
    hexValue? (Nat.digitChar value) = some value ∧
      (Nat.digitChar value).toLower = Nat.digitChar value := by
  have each : ∀ one < 16, hexValue? (Nat.digitChar one) = some one ∧
      (Nat.digitChar one).toLower = Nat.digitChar one := by
    decide
  exact each value small

/-- A number goes on with its last digit. -/
theorem numberOf?_concat
    (characters : List Char)
    (last : Char) :
    numberOf? hexValue? 16 (characters ++ [last]) =
      (numberOf? hexValue? 16 characters).bind fun total =>
        (hexValue? last).bind fun value =>
          if value < 16 then some (16 * total + value) else none := by
  unfold numberOf?
  rw [List.foldl_append]
  rfl

/-- So does what is written for it. -/
theorem hexPadded_concat
    {width : Nat}
    (positive : 0 < width)
    (number : Nat)
    {value : Nat}
    (small : value < 16) :
    hexPadded (width + 1) (16 * number + value) =
      hexPadded width number ++ [Nat.digitChar value] := by
  unfold hexPadded hexDigits
  dsimp only
  rcases Nat.eq_zero_or_pos number with rfl | nonzero
  · rw [Nat.mul_zero, Nat.zero_add, Nat.toDigits_of_lt_base small, Nat.toDigits_zero]
    obtain ⟨rest, rfl⟩ := Nat.exists_eq_succ_of_ne_zero (Nat.ne_of_gt positive)
    simp [List.replicate_succ']
  · rw [← Nat.toDigits_append_toDigits (by decide) nonzero small,
      Nat.toDigits_of_lt_base small, List.length_append, List.length_singleton,
      Nat.add_sub_add_right, List.append_assoc]

/-- Just digits are read as a number. -/
theorem exists_numberOf?_iff
    {characters : List Char} :
    (∃ number, numberOf? hexValue? 16 characters = some number) ↔
      ∀ character ∈ characters, IsHexDigit character := by
  induction characters using List.reverseRecOn with
  | nil => exact iff_of_true ⟨0, rfl⟩ (by simp)
  | append_singleton characters last inductionHypothesis =>
      rw [numberOf?_concat, List.forall_mem_append, ← inductionHypothesis,
        List.forall_mem_singleton]
      constructor
      · rintro ⟨number, found⟩
        obtain ⟨total, before, here⟩ := Option.bind_eq_some_iff.mp found
        obtain ⟨value, digit, -⟩ := Option.bind_eq_some_iff.mp here
        exact ⟨⟨total, before⟩, isHexDigit_of_hexValue? digit⟩
      · rintro ⟨⟨total, before⟩, digit⟩
        obtain ⟨value, small, found, -⟩ := digit.exists_hexValue?
        exact ⟨16 * total + value, by simp [before, found, small]⟩

/-- The number that digits are read as is written with them in lower case. -/
theorem hexPadded_of_numberOf?
    {digits : List Char}
    {number : Nat}
    (nonempty : digits ≠ [])
    (read : numberOf? hexValue? 16 digits = some number) :
    number < 16 ^ digits.length ∧ hexPadded digits.length number = digits.map Char.toLower := by
  induction digits using List.reverseRecOn generalizing number with
  | nil => contradiction
  | append_singleton digits last inductionHypothesis =>
      rw [numberOf?_concat] at read
      obtain ⟨total, before, here⟩ := Option.bind_eq_some_iff.mp read
      obtain ⟨value, found, rest⟩ := Option.bind_eq_some_iff.mp here
      obtain ⟨value, small, isValue, written, -⟩ :=
        (isHexDigit_of_hexValue? found).exists_hexValue?
      obtain rfl := Option.some.inj (found.symm.trans isValue)
      rw [if_pos small] at rest
      obtain rfl := Option.some.inj rest
      rw [List.length_append, List.length_singleton, List.map_append, List.map_singleton,
        ← written]
      rcases digits.eq_nil_or_concat with rfl | ⟨_, _, isConcat⟩
      · obtain rfl := Option.some.inj before
        simp [small, hexPadded, hexDigits, Nat.toDigits_of_lt_base small]
      · have started : digits ≠ [] := by simp [isConcat]
        obtain ⟨bound, same⟩ := inductionHypothesis started before
        rw [hexPadded_concat (List.length_pos_iff.mpr started) total small, same]
        exact ⟨by omega, rfl⟩

/-- What is written for a number that fits has the wanted width and is read as that
number. -/
theorem numberOf?_hexPadded
    (width : Nat)
    (positive : 0 < width)
    {number : Nat}
    (fits : number < 16 ^ width) :
    (hexPadded width number).length = width ∧
      numberOf? hexValue? 16 (hexPadded width number) = some number := by
  induction width generalizing number with
  | zero => contradiction
  | succ width inductionHypothesis =>
      rcases Nat.eq_zero_or_pos width with rfl | wider
      · rw [Nat.pow_one] at fits
        simp [hexPadded, hexDigits, Nat.toDigits_of_lt_base fits, numberOf?, fits,
          hexValue?_digitChar fits]
      · have small : number % 16 < 16 := Nat.mod_lt _ (by decide)
        obtain ⟨size, read⟩ := inductionHypothesis wider
          (Nat.div_lt_of_lt_mul (by rwa [Nat.pow_succ, Nat.mul_comm] at fits))
        rw [← Nat.div_add_mod number 16, hexPadded_concat wider _ small]
        refine ⟨by simp [size], ?_⟩
        rw [numberOf?_concat, read]
        simp [hexValue?_digitChar small, small]

/-- A number that fits a smaller width has a leading zero. -/
theorem hexPadded_succ_of_lt
    {width number : Nat}
    (positive : 0 < width)
    (fits : number < 16 ^ width) :
    hexPadded (width + 1) number = '0' :: hexPadded width number := by
  have short : (hexDigits number).length ≤ width :=
    (Nat.length_toDigits_le_iff (by decide) positive).mpr fits
  unfold hexPadded
  dsimp only
  rw [Nat.sub_add_comm short, List.replicate_succ, List.cons_append]

/-- Characters of one byte are as many as their bytes. -/
theorem utf8Length_eq_length
    {characters : List Char}
    (narrow : ∀ character ∈ characters, character.utf8Size = 1) :
    utf8Length characters = characters.length := by
  induction characters using List.reverseRecOn with
  | nil => rfl
  | append_singleton characters last inductionHypothesis =>
      rw [List.forall_mem_append, List.forall_mem_singleton] at narrow
      unfold utf8Length at inductionHypothesis ⊢
      rw [List.foldl_append, inductionHypothesis narrow.1]
      simp [narrow.2]

/-- What a text that starts with `lead` goes on with. -/
theorem stripLead_append
    (lead rest : List Char) :
    stripLead lead (lead ++ rest) = rest := by
  have found : stripLead? lead (lead ++ rest) = some rest := by
    induction lead with
    | nil => rfl
    | cons first lead inductionHypothesis => simpa [stripLead?] using inductionHypothesis
  rw [stripLead, found]
  rfl

/-- A text either starts with `lead` or is left as it is. -/
theorem stripLead_cases
    (lead characters : List Char) :
    characters = lead ++ stripLead lead characters ∨
      ¬lead <+: characters ∧ stripLead lead characters = characters := by
  by_cases starts : lead <+: characters
  · obtain ⟨rest, rfl⟩ := starts
    exact Or.inl (by rw [stripLead_append])
  · refine Or.inr ⟨starts, ?_⟩
    have missing : stripLead? lead characters = none := by
      induction lead generalizing characters with
      | nil => exact absurd List.nil_prefix starts
      | cons first lead inductionHypothesis =>
          cases characters with
          | nil => rfl
          | cons character characters =>
              unfold stripLead?
              split
              · rename_i same
                rw [same, List.cons_prefix_cons] at starts
                exact inductionHypothesis characters (by simpa using starts)
              · rfl
    rw [stripLead, missing]
    rfl

/-- What is left without `lead` is the whole text, or was behind `lead`. -/
theorem stripLead_eq_iff
    {lead rest : List Char}
    (plain : ¬lead <+: rest)
    (characters : List Char) :
    stripLead lead characters = rest ↔ characters = rest ∨ characters = lead ++ rest := by
  constructor
  · rintro rfl
    rcases stripLead_cases lead characters with behind | ⟨-, whole⟩
    · exact Or.inr behind
    · exact Or.inl whole.symm
  · rintro (rfl | rfl)
    · rcases stripLead_cases lead characters with behind | ⟨-, whole⟩
      · exact absurd ⟨_, behind.symm⟩ plain
      · exact whole
    · exact stripLead_append lead rest

/-- Digits do not start with what holds another character. -/
theorem not_prefix_of_isHexDigit
    {lead digits : List Char}
    (areDigits : ∀ digit ∈ digits, IsHexDigit digit)
    (marked : ∃ mark ∈ lead, ¬IsHexDigit mark) :
    ¬lead <+: digits := by
  obtain ⟨mark, present, other⟩ := marked
  exact fun starts => other (areDigits mark (starts.subset present))

section Digits

variable {digits : List Char}

theorem utf8Length_of_isHexDigit
    (areDigits : ∀ digit ∈ digits, IsHexDigit digit) :
    utf8Length digits = digits.length :=
  utf8Length_eq_length fun digit present => (areDigits digit present).utf8Size_eq

/-- A sign is one byte, too. -/
theorem utf8Length_signed
    (areDigits : ∀ digit ∈ digits, IsHexDigit digit) :
    utf8Length ('+' :: digits) = digits.length + 1 :=
  utf8Length_eq_length (List.forall_mem_cons.mpr
    ⟨by decide, fun digit present => (areDigits digit present).utf8Size_eq⟩)

/-- Digits that are left without a sign are the whole text, or were behind it. -/
theorem stripSign_eq_iff
    (areDigits : ∀ digit ∈ digits, IsHexDigit digit)
    (body : List Char) :
    stripLead ['+'] body = digits ↔ body = digits ∨ body = '+' :: digits :=
  stripLead_eq_iff (not_prefix_of_isHexDigit areDigits ⟨'+', by simp, by decide⟩) body

end Digits

end Text

namespace Target

open Text

/-- Whether a text is eight digits, perhaps behind `0x`, and a target is written
with them in lower case. -/
def Denotes
    (text : String)
    (target : Target) : Prop :=
  ∃ digits : List Char, digits.length = 8 ∧ (∀ digit ∈ digits, IsHexDigit digit) ∧
    (text.toList = digits ∨ text.toList = '0' :: 'x' :: digits) ∧
    target.toHex = String.ofList (digits.map Char.toLower)

/-- Whether just the target that a text denotes is read from it, and none if it
denotes none. -/
def IsReadExactly
    (text : String) : Prop :=
  ∀ target, ofHex text = .ok target ↔ Denotes text target

/-- Whether a text is a plus sign before seven digits, perhaps behind `0x`. -/
def IsSigned
    (text : String) : Prop :=
  ∃ digits : List Char, digits.length = 7 ∧ (∀ digit ∈ digits, IsHexDigit digit) ∧
    (text.toList = '+' :: digits ∨ text.toList = '0' :: 'x' :: '+' :: digits)

/-- What is written for a target tells it. -/
theorem toHexChars_injective
    {target other : Target}
    (same : target.toHexChars = other.toHexChars) :
    target = other := by
  obtain ⟨_, read⟩ := numberOf?_hexPadded 8 (by decide) target.compact.toNat_lt
  obtain ⟨_, otherRead⟩ := numberOf?_hexPadded 8 (by decide) other.compact.toNat_lt
  unfold toHexChars at same
  rw [same, otherRead] at read
  obtain ⟨compact⟩ := target
  obtain ⟨otherCompact⟩ := other
  exact congrArg Target.mk (UInt32.toNat_inj.mp (Option.some.inj read).symm)

/-- The target of at most eight digits is written with leading zeros and them in
lower case. -/
theorem toHexChars_of_numberOf?
    {digits : List Char}
    {number : Nat}
    (read : numberOf? hexValue? 16 digits = some number)
    (size : digits.length = 8 ∨ digits.length = 7) :
    toHexChars ⟨UInt32.ofNat number⟩ =
      List.replicate (8 - digits.length) '0' ++ digits.map Char.toLower := by
  have nonempty : digits ≠ [] := by
    rintro rfl
    simp at size
  obtain ⟨fits, written⟩ := hexPadded_of_numberOf? nonempty read
  have inRange : number < 2 ^ 32 := by
    refine Nat.lt_of_lt_of_le fits ?_
    rcases size with eight | seven
    · rw [eight]; decide
    · rw [seven]; decide
  unfold toHexChars
  rw [UInt32.toNat_ofNat_of_lt' inRange, ← written]
  rcases size with eight | seven
  · rw [eight]
    rfl
  · rw [seven] at fits ⊢
    exact hexPadded_succ_of_lt (by decide) fits

/-- What is read is a target whose digits are in the text, perhaps behind a
sign. -/
theorem ofHexChars_eq_ok_iff
    (characters : List Char)
    (target : Target) :
    ofHexChars characters = .ok target ↔
      ∃ digits, (∀ digit ∈ digits, IsHexDigit digit) ∧
        (digits.length = 8 ∧ stripLead ['0', 'x'] characters = digits ∨
          digits.length = 7 ∧ stripLead ['0', 'x'] characters = '+' :: digits) ∧
        target.toHexChars =
          List.replicate (8 - digits.length) '0' ++ digits.map Char.toLower := by
  unfold ofHexChars
  dsimp only
  generalize stripLead ['0', 'x'] characters = body
  constructor
  · intro read
    split at read
    · contradiction
    · rename_i size
      rw [not_not] at size
      split at read
      · rename_i number found
        obtain rfl := Except.ok.inj read
        have areDigits := exists_numberOf?_iff.mp ⟨number, found⟩
        have sized : (stripLead ['+'] body).length = 8 ∧ body = stripLead ['+'] body ∨
            (stripLead ['+'] body).length = 7 ∧ body = '+' :: stripLead ['+'] body := by
          rcases (stripSign_eq_iff areDigits body).mp rfl with plain | signed
          · rw [plain, utf8Length_of_isHexDigit areDigits] at size
            exact Or.inl ⟨size, plain⟩
          · rw [signed, utf8Length_signed areDigits] at size
            exact Or.inr ⟨Nat.succ.inj size, signed⟩
        exact ⟨_, areDigits, sized,
          toHexChars_of_numberOf? found (sized.imp And.left And.left)⟩
      · contradiction
  · rintro ⟨digits, areDigits, sized, written⟩
    have size : utf8Length body = 8 := by
      rcases sized with ⟨eight, rfl⟩ | ⟨seven, rfl⟩
      · rw [utf8Length_of_isHexDigit areDigits, eight]
      · rw [utf8Length_signed areDigits, seven]
    obtain ⟨number, found⟩ := exists_numberOf?_iff.mpr areDigits
    rw [if_neg (not_not.mpr size),
      (stripSign_eq_iff areDigits body).mpr (sized.imp And.right And.right), found]
    exact congrArg Except.ok (toHexChars_injective
      ((toHexChars_of_numberOf? found (sized.imp And.left And.left)).trans written.symm))

/-- Whether a text is a plus sign before seven digits, and a target is written with
a zero in the place of the sign. -/
def DenotesSigned
    (text : String)
    (target : Target) : Prop :=
  ∃ digits : List Char, digits.length = 7 ∧ (∀ digit ∈ digits, IsHexDigit digit) ∧
    (text.toList = '+' :: digits ∨ text.toList = '0' :: 'x' :: '+' :: digits) ∧
    target.toHex = String.ofList ('0' :: digits.map Char.toLower)

theorem ofHex_eq_ok_iff
    (text : String)
    (target : Target) :
    ofHex text = .ok target ↔ Denotes text target ∨ DenotesSigned text target := by
  have bare {digits : List Char} (areDigits : ∀ digit ∈ digits, IsHexDigit digit) :
      stripLead ['0', 'x'] text.toList = digits ↔
        text.toList = digits ∨ text.toList = '0' :: 'x' :: digits :=
    stripLead_eq_iff (not_prefix_of_isHexDigit areDigits ⟨'x', by simp, by decide⟩) text.toList
  have bareSigned (digits : List Char) :
      stripLead ['0', 'x'] text.toList = '+' :: digits ↔
        text.toList = '+' :: digits ∨ text.toList = '0' :: 'x' :: '+' :: digits := by
    have plain : ¬['0', 'x'] <+: '+' :: digits := by simp
    exact stripLead_eq_iff plain text.toList
  unfold ofHex Denotes DenotesSigned toHex
  rw [ofHexChars_eq_ok_iff]
  simp only [String.ofList_inj]
  constructor
  · rintro ⟨digits, areDigits, ⟨size, body⟩ | ⟨size, body⟩, written⟩
    · rw [size] at written
      exact Or.inl ⟨digits, size, areDigits, (bare areDigits).mp body, written⟩
    · rw [size] at written
      exact Or.inr ⟨digits, size, areDigits, (bareSigned digits).mp body, written⟩
  · rintro (⟨digits, size, areDigits, found, written⟩ | ⟨digits, size, areDigits, found, written⟩)
    · exact ⟨digits, areDigits, Or.inl ⟨size, (bare areDigits).mpr found⟩, by rwa [size]⟩
    · exact ⟨digits, areDigits, Or.inr ⟨size, (bareSigned digits).mpr found⟩, by rwa [size]⟩

/-- A sign is no digit. -/
theorem not_denotes_of_isSigned
    {text : String}
    (signed : IsSigned text)
    (target : Target) :
    ¬Denotes text target := by
  obtain ⟨others, -, -, split⟩ := signed
  rintro ⟨digits, -, areDigits, found, -⟩
  have noSign : '+' ∉ digits := fun present => absurd (areDigits '+' present) (by decide)
  have noMark : 'x' ∉ digits := fun present => absurd (areDigits 'x' present) (by decide)
  rcases split with split | split <;> rcases found with found | found <;> rw [split] at found
  · exact noSign (found ▸ List.mem_cons_self)
  · simp at found
  · exact noMark (found ▸ List.mem_cons_of_mem _ List.mem_cons_self)
  · obtain ⟨-, -, rfl⟩ := found
    exact noSign List.mem_cons_self

/-- Some target is read from a sign and digits. -/
theorem exists_denotesSigned_iff
    (text : String) :
    (∃ target, DenotesSigned text target) ↔ IsSigned text := by
  constructor
  · rintro ⟨_, digits, size, areDigits, found, -⟩
    exact ⟨digits, size, areDigits, found⟩
  · rintro ⟨digits, size, areDigits, found⟩
    obtain ⟨number, read⟩ := exists_numberOf?_iff.mpr areDigits
    refine ⟨⟨UInt32.ofNat number⟩, digits, size, areDigits, found, ?_⟩
    rw [toHex, toHexChars_of_numberOf? read (Or.inr size), size]
    rfl

theorem isReadExactly_iff
    (text : String) :
    IsReadExactly text ↔ ¬IsSigned text := by
  constructor
  · intro exact signed
    obtain ⟨target, denotes⟩ := (exists_denotesSigned_iff text).mpr signed
    have read := (ofHex_eq_ok_iff text target).mpr (Or.inr denotes)
    exact not_denotes_of_isSigned signed target ((exact target).mp read)
  · intro unsigned target
    rw [ofHex_eq_ok_iff]
    exact or_iff_left fun denotes =>
      unsigned ((exists_denotesSigned_iff text).mp ⟨target, denotes⟩)

/-- What is written for a target denotes it. -/
theorem ofHex_toHex
    (target : Target) :
    ofHex target.toHex = .ok target := by
  obtain ⟨size, read⟩ := numberOf?_hexPadded 8 (by decide) target.compact.toNat_lt
  have written := toHexChars_of_numberOf? read (Or.inl size)
  rw [UInt32.ofNat_toNat, size] at written
  refine (ofHex_eq_ok_iff _ _).mpr (Or.inl ⟨target.toHexChars, size, ?_, Or.inl ?_, ?_⟩)
  · exact exists_numberOf?_iff.mp ⟨_, read⟩
  · exact String.toList_ofList
  · exact congrArg String.ofList written

/-- Just the target that a text denotes is read from it, unless the text is a plus
sign before seven digits; and what is written of a target, as text or in bytes,
gives it back. -/
theorem readsExactly_iff_unsigned
    (text : String)
    (target : Target) :
    (IsReadExactly text ↔ ¬IsSigned text) ∧
      ofHex target.toHex = .ok target ∧ ofBytes target.toBytes = target :=
  ⟨isReadExactly_iff text, ofHex_toHex target, ofBytes_toBytes target⟩

/-- A text of a plus sign and seven digits is read as a target, though it denotes
none. -/
theorem not_isReadExactly_plusSign :
    ofHex "+1234567" = .ok ⟨0x01234567⟩ ∧ ¬IsReadExactly "+1234567" := by
  have areDigits := exists_numberOf?_iff.mp
    (⟨0x1234567, rfl⟩ : ∃ number, numberOf? hexValue? 16 "1234567".toList = some number)
  have signed : IsSigned "+1234567" := ⟨"1234567".toList, rfl, areDigits, Or.inl rfl⟩
  exact ⟨by decide, fun exact => (isReadExactly_iff "+1234567").mp exact signed⟩

end Target
end WorkMarket
