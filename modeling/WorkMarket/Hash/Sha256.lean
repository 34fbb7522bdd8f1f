import WorkMarket.Bytes.Basic

/-!
# SHA-256

The hash function of FIPS 180-4.  The message is padded to whole blocks of
sixty-four bytes, each block is expanded to sixty-four words, and the words
are mixed into a state of eight words, whose bytes are the digest.
-/

namespace WorkMarket
namespace Sha256

/-- The eight words that are carried from block to block. -/
structure State where
  a : UInt32
  b : UInt32
  c : UInt32
  d : UInt32
  e : UInt32
  f : UInt32
  g : UInt32
  h : UInt32

/-- Rotate a word right; `amount` lies strictly between zero and thirty-two. -/
def rotateRight
    (word amount : UInt32) :
    UInt32 :=
  (word >>> amount) ||| (word <<< (32 - amount))

/-- The initial state: fractional parts of the square roots of eight primes. -/
def initial : State :=
  ⟨0x6a09e667, 0xbb67ae85, 0x3c6ef372, 0xa54ff53a,
    0x510e527f, 0x9b05688c, 0x1f83d9ab, 0x5be0cd19⟩

/-- The round constants: fractional parts of the cube roots of the first
sixty-four primes. -/
def roundConstants : List UInt32 :=
  [0x428a2f98, 0x71374491, 0xb5c0fbcf, 0xe9b5dba5, 0x3956c25b, 0x59f111f1, 0x923f82a4, 0xab1c5ed5,
   0xd807aa98, 0x12835b01, 0x243185be, 0x550c7dc3, 0x72be5d74, 0x80deb1fe, 0x9bdc06a7, 0xc19bf174,
   0xe49b69c1, 0xefbe4786, 0x0fc19dc6, 0x240ca1cc, 0x2de92c6f, 0x4a7484aa, 0x5cb0a9dc, 0x76f988da,
   0x983e5152, 0xa831c66d, 0xb00327c8, 0xbf597fc7, 0xc6e00bf3, 0xd5a79147, 0x06ca6351, 0x14292967,
   0x27b70a85, 0x2e1b2138, 0x4d2c6dfc, 0x53380d13, 0x650a7354, 0x766a0abb, 0x81c2c92e, 0x92722c85,
   0xa2bfe8a1, 0xa81a664b, 0xc24b8b70, 0xc76c51a3, 0xd192e819, 0xd6990624, 0xf40e3585, 0x106aa070,
   0x19a4c116, 0x1e376c08, 0x2748774c, 0x34b0bcb5, 0x391c0cb3, 0x4ed8aa4a, 0x5b9cca4f, 0x682e6ff3,
   0x748f82ee, 0x78a5636f, 0x84c87814, 0x8cc70208, 0x90befffa, 0xa4506ceb, 0xbef9a3f7, 0xc67178f2]

/-- The four bytes of a word, most significant first. -/
def wordBytes
    (word : UInt32) :
    Bytes :=
  [(word >>> 24).toUInt8, (word >>> 16).toUInt8, (word >>> 8).toUInt8, word.toUInt8]

/-- Read big-endian words; bytes that do not fill a word are dropped. -/
def words : Bytes → List UInt32
  | b₀ :: b₁ :: b₂ :: b₃ :: rest =>
      ((b₀.toUInt32 <<< 24) ||| (b₁.toUInt32 <<< 16) ||| (b₂.toUInt32 <<< 8) ||| b₃.toUInt32) ::
        words rest
  | _ => []

/-- The word that follows the given ones, which stand newest first. -/
def nextWord
    (recent : List UInt32) :
    UInt32 :=
  let two := recent.getD 1 0
  let fifteen := recent.getD 14 0
  let small₀ := rotateRight fifteen 7 ^^^ rotateRight fifteen 18 ^^^ (fifteen >>> 3)
  let small₁ := rotateRight two 17 ^^^ rotateRight two 19 ^^^ (two >>> 10)
  small₁ + recent.getD 6 0 + small₀ + recent.getD 15 0

/-- Put `count` further words in front of words that stand newest first. -/
def extend : Nat → List UInt32 → List UInt32
  | 0, recent => recent
  | count + 1, recent => extend count (nextWord recent :: recent)

/-- The sixty-four words of a block. -/
def schedule
    (block : Bytes) :
    List UInt32 :=
  (extend 48 (words block).reverse).reverse

/-- Mix one word and its round constant into the state. -/
def round
    (state : State)
    (word constant : UInt32) :
    State :=
  let big₁ := rotateRight state.e 6 ^^^ rotateRight state.e 11 ^^^ rotateRight state.e 25
  let choice := (state.e &&& state.f) ^^^ ((~~~ state.e) &&& state.g)
  let first := state.h + big₁ + choice + constant + word
  let big₀ := rotateRight state.a 2 ^^^ rotateRight state.a 13 ^^^ rotateRight state.a 22
  let majority := (state.a &&& state.b) ^^^ (state.a &&& state.c) ^^^ (state.b &&& state.c)
  ⟨first + (big₀ + majority), state.a, state.b, state.c,
    state.d + first, state.e, state.f, state.g⟩

/-- Run the rounds, one for each word and constant. -/
def rounds : State → List UInt32 → List UInt32 → State
  | state, word :: rest, constant :: constants =>
      rounds (round state word constant) rest constants
  | state, _, _ => state

/-- Mix a block into the state. -/
def compress
    (state : State)
    (block : Bytes) :
    State :=
  let mixed := rounds state (schedule block) roundConstants
  ⟨state.a + mixed.a, state.b + mixed.b, state.c + mixed.c, state.d + mixed.d,
    state.e + mixed.e, state.f + mixed.f, state.g + mixed.g, state.h + mixed.h⟩

/-- What is put behind a message of `length` bytes: a one bit, zeros up to
eight bytes before a block's end, and the length in bits. -/
def padding
    (length : Nat) :
    Bytes :=
  let bits := 8 * length
  0x80 :: (List.replicate ((119 - length % 64) % 64) 0 ++
    wordBytes (UInt32.ofNat (bits / UInt32.size)) ++ wordBytes (UInt32.ofNat bits))

/-- Mix `count` blocks into the state. -/
def absorb : Nat → State → Bytes → State
  | 0, state, _ => state
  | count + 1, state, bytes =>
      absorb count (compress state (bytes.take 64)) (bytes.drop 64)

/-- The bytes of a final state. -/
def State.toBytes
    (state : State) :
    Bytes :=
  wordBytes state.a ++ wordBytes state.b ++ wordBytes state.c ++ wordBytes state.d ++
    wordBytes state.e ++ wordBytes state.f ++ wordBytes state.g ++ wordBytes state.h

@[simp] theorem State.length_toBytes
    (state : State) :
    state.toBytes.length = 32 :=
  rfl

/-- The digest of a message. -/
def hash
    (message : Bytes) :
    FixedBytes 32 :=
  let padded := message ++ padding message.length
  ⟨(absorb (padded.length / 64) initial padded).toBytes, State.length_toBytes _⟩

end Sha256
end WorkMarket
