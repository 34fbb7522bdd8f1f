import WorkMarket.Bytes.LittleEndian
import WorkMarket.Failure
import WorkMarket.Hash.Composite

/-!
# Names on the chain

Digests name scripts, transactions and content; addresses name those who may
redeem an output; an outpoint names one output of one transaction; a secret
is the key behind an address.  The all-zero value of each means that there
is none.
-/

namespace WorkMarket

/-- A 256-bit digest in the byte order in which it is hashed and pushed. -/
abbrev Digest := FixedBytes 32

/-- The hash of a public key. -/
abbrev Address := FixedBytes 20

namespace Digest

/-- The digest that stands for no value. -/
abbrev absent : Digest :=
  FixedBytes.zero 32

/-- Whether a digest names anything. -/
def isValid
    (digest : Digest) :
    Bool :=
  !digest.isZero

/-- The number a digest denotes, least significant byte first. -/
def toNat
    (digest : Digest) :
    Nat :=
  LittleEndian.decode digest.toList

/-- The hexadecimal text of a digest. -/
def toHex
    (digest : Digest) :
    String :=
  Hex.encode digest.toList

/-- Read the hexadecimal text of a digest. -/
def ofHex
    (text : String) :
    Except Failure Digest :=
  match Hex.decode text with
  | .error fault => .error (.digestHex fault)
  | .ok bytes =>
      match FixedBytes.ofList? 32 bytes with
      | some digest => .ok digest
      | none => .error (.digestLength bytes.length)

end Digest

namespace Address

/-- The address that stands for no value. -/
abbrev absent : Address :=
  FixedBytes.zero 20

/-- The hexadecimal text of an address. -/
def toHex
    (address : Address) :
    String :=
  Hex.encode address.toList

/-- Read the hexadecimal text of an address. -/
def ofHex
    (text : String) :
    Except Failure Address :=
  match Hex.decode text with
  | .error fault => .error (.addressHex fault)
  | .ok bytes =>
      match FixedBytes.ofList? 20 bytes with
      | some address => .ok address
      | none => .error (.addressLength bytes.length)

end Address

/-- The private key that redeems a contract. -/
structure Secret where
  /-- The key. -/
  key : FixedBytes 32
deriving DecidableEq, Inhabited

namespace Secret

/-- A zero key is no key. -/
def isValid
    (secret : Secret) :
    Bool :=
  !secret.key.isZero

/-- What a secret shows of itself in diagnostics. -/
def redacted : String :=
  "Secret(..)"

end Secret

/-- One output of a transaction. -/
structure Outpoint where
  /-- The transaction. -/
  transaction : Digest
  /-- The place of the output among the transaction's outputs. -/
  index : UInt32
deriving DecidableEq, Inhabited

namespace Outpoint

/-- An outpoint is valid when it names a transaction. -/
def isValid
    (outpoint : Outpoint) :
    Bool :=
  outpoint.transaction.isValid

/-- The transaction and the index with a colon between. -/
def text
    (outpoint : Outpoint) :
    String :=
  outpoint.transaction.toHex ++ ":" ++ toString outpoint.index.toNat

end Outpoint

end WorkMarket
