/-!
# Byte strings

Byte strings are lists of bytes, first byte first.  Values that name things
(digests, addresses, keys) are byte strings of one fixed size; the size is
part of their type, so that no function has to check it again.
-/

namespace WorkMarket

/-- A byte string, first byte first. -/
abbrev Bytes := List UInt8

/-- A byte string of exactly `size` bytes. -/
@[ext] structure FixedBytes (size : Nat) where
  /-- The bytes in order. -/
  toList : Bytes
  /-- There are `size` of them. -/
  length_toList : toList.length = size
deriving DecidableEq

namespace FixedBytes

attribute [simp] length_toList

/-- One byte in every position. -/
def filled
    (size : Nat)
    (byte : UInt8) :
    FixedBytes size :=
  ⟨List.replicate size byte, List.length_replicate⟩

/-- All bytes zero, which marks the absence of a value. -/
def zero
    (size : Nat) :
    FixedBytes size :=
  filled size 0

instance : Inhabited (FixedBytes size) := ⟨zero size⟩

/-- Whether every byte is zero. -/
def isZero
    (value : FixedBytes size) :
    Bool :=
  value = zero size

/-- A byte string of the right size; any other size is refused. -/
def ofList?
    (size : Nat)
    (bytes : Bytes) :
    Option (FixedBytes size) :=
  if sizeEqual : bytes.length = size then some ⟨bytes, sizeEqual⟩ else none

@[simp] theorem ofList?_toList
    (value : FixedBytes size) :
    ofList? size value.toList = some value := by
  simp [ofList?]

theorem toList_injective
    {left right : FixedBytes size}
    (equal : left.toList = right.toList) :
    left = right :=
  FixedBytes.ext equal

/-- The bytes from `offset` on, `count` of them. -/
def slice
    (value : FixedBytes size)
    (offset count : Nat)
    (inside : offset + count ≤ size) :
    FixedBytes count :=
  ⟨(value.toList.drop offset).take count, by
    simp only [List.length_take, List.length_drop, length_toList]
    omega⟩

@[simp] theorem toList_slice
    (value : FixedBytes size)
    (offset count : Nat)
    (inside : offset + count ≤ size) :
    (value.slice offset count inside).toList = (value.toList.drop offset).take count :=
  rfl

/-- Byte-by-byte order, the first difference deciding. -/
def precedes
    (left right : FixedBytes size) :
    Bool :=
  left.toList < right.toList

end FixedBytes

end WorkMarket
