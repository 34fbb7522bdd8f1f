import WorkMarket.Chain.Identity

/-!
# Signatures and public keys

Both are opaque byte strings here: a signature is looked at only for whether
there is one, a public key only for its size, its first byte and its hash.
-/

namespace WorkMarket

/-- A signature with its hash type. -/
structure Signature where
  /-- The bytes of the signature. -/
  bytes : Bytes
deriving DecidableEq, Inhabited

namespace Signature

/-- Whether there is a signature at all. -/
def isValid
    (signature : Signature) :
    Bool :=
  !signature.bytes.isEmpty

/-- The hexadecimal text of a signature. -/
def toHex
    (signature : Signature) :
    String :=
  Hex.encode signature.bytes

/-- Read the hexadecimal text of a signature. -/
def ofHex
    (text : String) :
    Except Failure Signature :=
  match Hex.decode text with
  | .error fault => .error (.signatureHex fault)
  | .ok bytes => .ok ⟨bytes⟩

end Signature

/-- A serialized public key. -/
structure PublicKey where
  /-- The bytes of the key. -/
  bytes : Bytes
deriving DecidableEq, Inhabited

namespace PublicKey

/-- The size of a key in compressed form. -/
def compressedSize : Nat := 33

/-- The size of a key in full form. -/
def fullSize : Nat := 65

/-- Whether size and first byte fit together. -/
def isValid
    (key : PublicKey) :
    Bool :=
  match key.bytes.head? with
  | none => false
  | some lead =>
      (key.bytes.length = compressedSize && (lead = 0x02 || lead = 0x03)) ||
        (key.bytes.length = fullSize && lead = 0x04)

/-- The address that a key redeems to. -/
def address
    (key : PublicKey) :
    Address :=
  hash160 key.bytes

/-- The hexadecimal text of a key. -/
def toHex
    (key : PublicKey) :
    String :=
  Hex.encode key.bytes

/-- Read the hexadecimal text of a key. -/
def ofHex
    (text : String) :
    Except Failure PublicKey :=
  match Hex.decode text with
  | .error fault => .error (.publicKeyHex fault)
  | .ok bytes => .ok ⟨bytes⟩

end PublicKey

end WorkMarket
