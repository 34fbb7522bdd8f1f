import WorkMarket.Bytes.Basic

/-!
# Little-endian numbers

Numbers are stored least significant byte first.  `encode` writes a number
into a given number of bytes and drops what does not fit; `decode` reads any
byte string.  The main statements are that the two are inverse to each other
on numbers that fit, and on all byte strings.
-/

namespace WorkMarket
namespace LittleEndian

/-- The `width` low bytes of a number, least significant first. -/
def encode : Nat → Nat → Bytes
  | 0, _ => []
  | width + 1, number => UInt8.ofNat number :: encode width (number / 256)

/-- The number a byte string denotes, least significant byte first. -/
def decode : Bytes → Nat
  | [] => 0
  | byte :: rest => byte.toNat + 256 * decode rest

@[simp] theorem encode_zero
    (number : Nat) :
    encode 0 number = [] :=
  rfl

@[simp] theorem decode_nil :
    decode [] = 0 :=
  rfl

@[simp] theorem decode_cons
    (byte : UInt8)
    (rest : Bytes) :
    decode (byte :: rest) = byte.toNat + 256 * decode rest :=
  rfl

@[simp] theorem length_encode
    (width number : Nat) :
    (encode width number).length = width := by
  induction width generalizing number with
  | zero => rfl
  | succ width inductionHypothesis => simp [encode, inductionHypothesis]

theorem decode_encode
    (width number : Nat) :
    decode (encode width number) = number % Nat.pow 256 width := by
  induction width generalizing number with
  | zero => simp [Nat.mod_one]
  | succ width inductionHypothesis =>
      simp only [encode, decode_cons, inductionHypothesis, UInt8.toNat_ofNat']
      rw [show Nat.pow 256 (width + 1) = 256 * Nat.pow 256 width from Nat.pow_succ', Nat.mod_mul]

theorem encode_decode
    (bytes : Bytes) :
    encode bytes.length (decode bytes) = bytes := by
  induction bytes with
  | nil => rfl
  | cons byte rest inductionHypothesis =>
      have byteBound : byte.toNat < 256 := byte.toNat_lt
      have quotient : (byte.toNat + 256 * decode rest) / 256 = decode rest := by omega
      have remainder : (byte.toNat + 256 * decode rest) % 256 = byte.toNat := by omega
      simp only [List.length_cons, encode, decode_cons, quotient, inductionHypothesis,
        List.cons.injEq, and_true]
      apply UInt8.toNat_inj.mp
      rw [UInt8.toNat_ofNat']
      exact remainder

theorem decode_lt
    (bytes : Bytes) :
    decode bytes < Nat.pow 256 bytes.length := by
  induction bytes with
  | nil => simp
  | cons byte rest inductionHypothesis =>
      have byteBound : byte.toNat < 256 := byte.toNat_lt
      have grown : Nat.pow 256 (rest.length + 1) = Nat.pow 256 rest.length * 256 :=
        Nat.pow_succ 256 rest.length
      rw [decode_cons, List.length_cons, grown]
      omega

/-- The fewest bytes that hold a number; zero takes one. -/
def minimalWidth
    (number : Nat) :
    Nat :=
  number.log2 / 8 + 1

/-- A number in the fewest bytes. -/
def minimal
    (number : Nat) :
    Bytes :=
  encode (minimalWidth number) number

/-- The four bytes of a 32-bit number. -/
def ofUInt32
    (number : UInt32) :
    Bytes :=
  encode 4 number.toNat

/-- The eight bytes of a 64-bit number. -/
def ofUInt64
    (number : UInt64) :
    Bytes :=
  encode 8 number.toNat

/-- The four bytes of a signed 32-bit number in two's complement. -/
def ofInt32
    (number : Int32) :
    Bytes :=
  ofUInt32 number.toUInt32

/-- The 32-bit number a byte string denotes. -/
def toUInt32
    (bytes : Bytes) :
    UInt32 :=
  UInt32.ofNat (decode bytes)

/-- The 64-bit number a byte string denotes. -/
def toUInt64
    (bytes : Bytes) :
    UInt64 :=
  UInt64.ofNat (decode bytes)

/-- The signed 32-bit number a byte string denotes in two's complement. -/
def toInt32
    (bytes : Bytes) :
    Int32 :=
  (toUInt32 bytes).toInt32

@[simp] theorem length_ofUInt32
    (number : UInt32) :
    (ofUInt32 number).length = 4 :=
  length_encode 4 number.toNat

@[simp] theorem length_ofUInt64
    (number : UInt64) :
    (ofUInt64 number).length = 8 :=
  length_encode 8 number.toNat

@[simp] theorem length_ofInt32
    (number : Int32) :
    (ofInt32 number).length = 4 :=
  length_ofUInt32 number.toUInt32

@[simp] theorem toUInt32_ofUInt32
    (number : UInt32) :
    toUInt32 (ofUInt32 number) = number := by
  unfold toUInt32 ofUInt32
  rw [decode_encode, Nat.mod_eq_of_lt (by simpa using number.toNat_lt)]
  exact UInt32.ofNat_toNat

@[simp] theorem toUInt64_ofUInt64
    (number : UInt64) :
    toUInt64 (ofUInt64 number) = number := by
  unfold toUInt64 ofUInt64
  rw [decode_encode, Nat.mod_eq_of_lt (by simpa using number.toNat_lt)]
  exact UInt64.ofNat_toNat

@[simp] theorem toInt32_ofInt32
    (number : Int32) :
    toInt32 (ofInt32 number) = number := by
  simp [toInt32, ofInt32]

theorem ofUInt32_toUInt32
    (bytes : Bytes)
    (four : bytes.length = 4) :
    ofUInt32 (toUInt32 bytes) = bytes := by
  have bound := decode_lt bytes
  rw [four] at bound
  unfold ofUInt32 toUInt32
  rw [UInt32.toNat_ofNat', Nat.mod_eq_of_lt (by simpa using bound), ← four]
  exact encode_decode bytes

theorem ofUInt64_toUInt64
    (bytes : Bytes)
    (eight : bytes.length = 8) :
    ofUInt64 (toUInt64 bytes) = bytes := by
  have bound := decode_lt bytes
  rw [eight] at bound
  unfold ofUInt64 toUInt64
  rw [UInt64.toNat_ofNat', Nat.mod_eq_of_lt (by simpa using bound), ← eight]
  exact encode_decode bytes

theorem ofInt32_toInt32
    (bytes : Bytes)
    (four : bytes.length = 4) :
    ofInt32 (toInt32 bytes) = bytes := by
  simp [toInt32, ofInt32, ofUInt32_toUInt32 bytes four]

end LittleEndian
end WorkMarket
