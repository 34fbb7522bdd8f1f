import WorkMarket.Bytes.LittleEndian

/-!
# RIPEMD-160

Two lines of eighty steps read the sixteen words of a block in different
orders; their results are combined crosswise into a state of five words,
whose little-endian bytes are the digest.
-/

namespace WorkMarket
namespace Ripemd160

/-- The five words that are carried from block to block. -/
structure State where
  a : UInt32
  b : UInt32
  c : UInt32
  d : UInt32
  e : UInt32

/-- The initial state. -/
def initial : State :=
  ⟨0x67452301, 0xefcdab89, 0x98badcfe, 0x10325476, 0xc3d2e1f0⟩

/-- Rotate a word left; `amount` lies strictly between zero and thirty-two. -/
def rotateLeft
    (word amount : UInt32) :
    UInt32 :=
  (word <<< amount) ||| (word >>> (32 - amount))

/-- The five mixing functions, one for each group of sixteen steps. -/
def mix : Nat → UInt32 → UInt32 → UInt32 → UInt32
  | 0, x, y, z => x ^^^ y ^^^ z
  | 1, x, y, z => (x &&& y) ||| ((~~~ x) &&& z)
  | 2, x, y, z => (x ||| (~~~ y)) ^^^ z
  | 3, x, y, z => (x &&& z) ||| (y &&& (~~~ z))
  | _, x, y, z => x ^^^ (y ||| (~~~ z))

/-- One group of sixteen steps: which mixing function and constant it uses,
in which order it reads the words, and how far it rotates. -/
structure Group where
  mixing : Nat
  constant : UInt32
  order : List Nat
  rotations : List UInt32

/-- The groups of the left line. -/
def leftLine : List Group :=
  [⟨0, 0x00000000, [0, 1, 2, 3, 4, 5, 6, 7, 8, 9, 10, 11, 12, 13, 14, 15],
      [11, 14, 15, 12, 5, 8, 7, 9, 11, 13, 14, 15, 6, 7, 9, 8]⟩,
   ⟨1, 0x5a827999, [7, 4, 13, 1, 10, 6, 15, 3, 12, 0, 9, 5, 2, 14, 11, 8],
      [7, 6, 8, 13, 11, 9, 7, 15, 7, 12, 15, 9, 11, 7, 13, 12]⟩,
   ⟨2, 0x6ed9eba1, [3, 10, 14, 4, 9, 15, 8, 1, 2, 7, 0, 6, 13, 11, 5, 12],
      [11, 13, 6, 7, 14, 9, 13, 15, 14, 8, 13, 6, 5, 12, 7, 5]⟩,
   ⟨3, 0x8f1bbcdc, [1, 9, 11, 10, 0, 8, 12, 4, 13, 3, 7, 15, 14, 5, 6, 2],
      [11, 12, 14, 15, 14, 15, 9, 8, 9, 14, 5, 6, 8, 6, 5, 12]⟩,
   ⟨4, 0xa953fd4e, [4, 0, 5, 9, 7, 12, 2, 10, 14, 1, 3, 8, 11, 6, 15, 13],
      [9, 15, 5, 11, 6, 8, 13, 12, 5, 12, 13, 14, 11, 8, 5, 6]⟩]

/-- The groups of the right line. -/
def rightLine : List Group :=
  [⟨4, 0x50a28be6, [5, 14, 7, 0, 9, 2, 11, 4, 13, 6, 15, 8, 1, 10, 3, 12],
      [8, 9, 9, 11, 13, 15, 15, 5, 7, 7, 8, 11, 14, 14, 12, 6]⟩,
   ⟨3, 0x5c4dd124, [6, 11, 3, 7, 0, 13, 5, 10, 14, 15, 8, 12, 4, 9, 1, 2],
      [9, 13, 15, 7, 12, 8, 9, 11, 7, 7, 12, 7, 6, 15, 13, 11]⟩,
   ⟨2, 0x6d703ef3, [15, 5, 1, 3, 7, 14, 6, 9, 11, 8, 12, 2, 10, 0, 4, 13],
      [9, 7, 15, 11, 8, 6, 6, 14, 12, 13, 5, 14, 13, 13, 7, 5]⟩,
   ⟨1, 0x7a6d76e9, [8, 6, 4, 1, 3, 11, 15, 0, 5, 12, 2, 13, 9, 7, 10, 14],
      [15, 5, 8, 11, 14, 14, 6, 14, 6, 9, 12, 9, 12, 5, 15, 8]⟩,
   ⟨0, 0x00000000, [12, 15, 10, 4, 1, 5, 8, 7, 6, 2, 13, 14, 0, 3, 9, 11],
      [8, 5, 12, 9, 12, 5, 14, 6, 8, 13, 6, 5, 15, 13, 11, 11]⟩]

/-- Read little-endian words; bytes that do not fill a word are dropped. -/
def words : Bytes → List UInt32
  | b₀ :: b₁ :: b₂ :: b₃ :: rest =>
      (b₀.toUInt32 ||| (b₁.toUInt32 <<< 8) ||| (b₂.toUInt32 <<< 16) ||| (b₃.toUInt32 <<< 24)) ::
        words rest
  | _ => []

/-- The four bytes of a word, least significant first. -/
def wordBytes
    (word : UInt32) :
    Bytes :=
  [word.toUInt8, (word >>> 8).toUInt8, (word >>> 16).toUInt8, (word >>> 24).toUInt8]

/-- One step of a line. -/
def step
    (group : Group)
    (block : List UInt32)
    (state : State)
    (position : Nat)
    (rotation : UInt32) :
    State :=
  let mixed := state.a + mix group.mixing state.b state.c state.d +
    block.getD position 0 + group.constant
  ⟨state.e, rotateLeft mixed rotation + state.e, state.b, rotateLeft state.c 10, state.d⟩

/-- The steps of a group. -/
def steps
    (group : Group)
    (block : List UInt32) :
    State → List Nat → List UInt32 → State
  | state, position :: order, rotation :: rotations =>
      steps group block (step group block state position rotation) order rotations
  | state, _, _ => state

/-- All groups of a line. -/
def line
    (groups : List Group)
    (block : List UInt32)
    (state : State) :
    State :=
  groups.foldl (fun current group => steps group block current group.order group.rotations) state

/-- Mix a block into the state. -/
def compress
    (state : State)
    (block : Bytes) :
    State :=
  let blockWords := words block
  let left := line leftLine blockWords state
  let right := line rightLine blockWords state
  ⟨state.b + left.c + right.d, state.c + left.d + right.e, state.d + left.e + right.a,
    state.e + left.a + right.b, state.a + left.b + right.c⟩

/-- What is put behind a message of `length` bytes: a one bit, zeros up to
eight bytes before a block's end, and the length in bits. -/
def padding
    (length : Nat) :
    Bytes :=
  0x80 :: (List.replicate ((119 - length % 64) % 64) 0 ++ LittleEndian.encode 8 (8 * length))

/-- Mix `count` blocks into the state. -/
def absorb : Nat → State → Bytes → State
  | 0, state, _ => state
  | count + 1, state, bytes =>
      absorb count (compress state (bytes.take 64)) (bytes.drop 64)

/-- The bytes of a final state. -/
def State.toBytes
    (state : State) :
    Bytes :=
  wordBytes state.a ++ wordBytes state.b ++ wordBytes state.c ++ wordBytes state.d ++
    wordBytes state.e

@[simp] theorem State.length_toBytes
    (state : State) :
    state.toBytes.length = 20 :=
  rfl

/-- The digest of a message. -/
def hash
    (message : Bytes) :
    FixedBytes 20 :=
  let padded := message ++ padding message.length
  ⟨(absorb (padded.length / 64) initial padded).toBytes, State.length_toBytes _⟩

end Ripemd160
end WorkMarket
