import WorkMarket.Market.Worker
import WorkMarket.Text.Record.Fields

/-!
# Work in JSON

Byte strings and names are written as hexadecimal texts, numbers plainly, and
everything else as records in the order of the fields.
-/

namespace WorkMarket

/-- A number of some fixed width. -/
def Json.ofNat
    (number : Nat) :
    Json :=
  .integer number

/-- A byte string as hexadecimal text. -/
def Json.ofBytes
    (bytes : Bytes) :
    Json :=
  .string (Hex.encode bytes)

/-- A value read from a text, if the text is accepted. -/
def Json.parsed?
    {α : Type}
    (read : String → Except Failure α)
    (value : Json) :
    Option α :=
  value.text?.bind fun text => (read text).toOption

/-- A byte string read from hexadecimal text. -/
def Json.bytes?
    (value : Json) :
    Option Bytes :=
  value.text?.bind fun text => (Hex.decode text).toOption

/-- A number of thirty-two bits. -/
def Json.uint32?
    (value : Json) :
    Option UInt32 :=
  (value.natural? 32).map UInt32.ofNat

/-- A number of sixty-four bits. -/
def Json.uint64?
    (value : Json) :
    Option UInt64 :=
  (value.natural? 64).map UInt64.ofNat

/-- A signed number of thirty-two bits. -/
def Json.int32?
    (value : Json) :
    Option Int32 :=
  (value.integerIn? Int32.minValue.toInt Int32.maxValue.toInt).map Int32.ofInt

namespace Digest

/-- The JSON form of a digest. -/
def toJson
    (digest : Digest) :
    Json :=
  .string digest.toHex

/-- Read a digest. -/
def ofJson?
    (value : Json) :
    Option Digest :=
  value.parsed? ofHex

end Digest

namespace Address

/-- The JSON form of an address. -/
def toJson
    (address : Address) :
    Json :=
  .string address.toHex

/-- Read an address. -/
def ofJson?
    (value : Json) :
    Option Address :=
  value.parsed? ofHex

end Address

namespace Signature

/-- The JSON form of a signature. -/
def toJson
    (signature : Signature) :
    Json :=
  .string signature.toHex

/-- Read a signature. -/
def ofJson?
    (value : Json) :
    Option Signature :=
  value.parsed? ofHex

end Signature

namespace PublicKey

/-- The JSON form of a key. -/
def toJson
    (key : PublicKey) :
    Json :=
  .string key.toHex

/-- Read a key. -/
def ofJson?
    (value : Json) :
    Option PublicKey :=
  value.parsed? ofHex

end PublicKey

namespace Outpoint

/-- The JSON form of an outpoint. -/
def toJson
    (outpoint : Outpoint) :
    Json :=
  .object [("txid", Digest.toJson outpoint.transaction), ("index", .ofNat outpoint.index.toNat)]

/-- Read an outpoint. -/
def ofJson?
    (value : Json) :
    Option Outpoint := do
  let fields ← value.fields? ["txid", "index"]
  return ⟨← fields.required "txid" Digest.ofJson?, ← fields.required "index" Json.uint32?⟩

end Outpoint

namespace Target

/-- The JSON form of a target. -/
def toJson
    (target : Target) :
    Json :=
  .string target.toHex

/-- Read a target. -/
def ofJson?
    (value : Json) :
    Option Target :=
  value.parsed? ofHex

end Target

namespace MerklePath

/-- The JSON form of a path. -/
def toJson
    (path : MerklePath) :
    Json :=
  .object [("index", .ofNat path.index.toNat),
    ("digests", .array (path.digests.map Digest.toJson))]

/-- Read a path. -/
def ofJson?
    (value : Json) :
    Option MerklePath := do
  let fields ← value.fields? ["index", "digests"]
  return ⟨← fields.required "index" Json.uint32?,
    ← fields.required "digests" (Json.list? Digest.ofJson?)⟩

end MerklePath

namespace Puzzle

/-- The JSON form of a puzzle. -/
def toJson
    (puzzle : Puzzle) :
    Json :=
  .object [("category", .integer puzzle.category.toInt),
    ("content", Digest.toJson puzzle.content),
    ("target", puzzle.target.toJson),
    ("path", puzzle.path.toJson),
    ("header", .ofBytes puzzle.header),
    ("body", .ofBytes puzzle.body)]

/-- Read a puzzle. -/
def ofJson?
    (value : Json) :
    Option Puzzle := do
  let fields ← value.fields? ["category", "content", "target", "path", "header", "body"]
  return ⟨← fields.required "category" Json.int32?,
    ← fields.required "content" Digest.ofJson?,
    ← fields.required "target" Target.ofJson?,
    ← fields.required "path" MerklePath.ofJson?,
    ← fields.required "header" Json.bytes?,
    ← fields.required "body" Json.bytes?⟩

end Puzzle

namespace Solution

/-- The JSON form of a solution. -/
def toJson
    (solution : Solution) :
    Json :=
  .object [("timestamp", .ofNat solution.timestamp.toNat),
    ("nonce", .ofNat solution.nonce.toNat),
    ("extra_nonce_1", .ofNat solution.extraNonce₁.toNat),
    ("extra_nonce_2", .ofNat solution.extraNonce₂.toNat)]

/-- Read a solution. -/
def ofJson?
    (value : Json) :
    Option Solution := do
  let fields ← value.fields? ["timestamp", "nonce", "extra_nonce_1", "extra_nonce_2"]
  return ⟨← fields.required "timestamp" Json.uint32?,
    ← fields.required "nonce" Json.uint32?,
    ← fields.required "extra_nonce_1" Json.uint32?,
    ← fields.required "extra_nonce_2" Json.uint64?⟩

end Solution

namespace WorkProof

/-- The JSON form of a proof. -/
def toJson
    (proof : WorkProof) :
    Json :=
  .object [("puzzle", proof.puzzle.toJson), ("solution", proof.solution.toJson)]

/-- Read a proof. -/
def ofJson?
    (value : Json) :
    Option WorkProof := do
  let fields ← value.fields? ["puzzle", "solution"]
  return ⟨← fields.required "puzzle" Puzzle.ofJson?,
    ← fields.required "solution" Solution.ofJson?⟩

end WorkProof

namespace ScriptKind

/-- The JSON form of a kind. -/
def toJson
    (kind : ScriptKind) :
    Json :=
  .string kind.text

/-- Read a kind. -/
def ofJson?
    (value : Json) :
    Option ScriptKind :=
  value.choice? [invalid, bounty, contract] text

end ScriptKind

namespace LockingScript

/-- The JSON form of a locking script. -/
def toJson
    (script : LockingScript) :
    Json :=
  .object [("type", script.kind.toJson),
    ("category", .integer script.category.toInt),
    ("content", Digest.toJson script.content),
    ("target", script.target.toJson),
    ("tag", .ofBytes script.tag),
    ("user_nonce", .ofNat script.userNonce.toNat),
    ("additional_data", .ofBytes script.data),
    ("miner_address", Address.toJson script.minerAddress)]

/-- Read a locking script. -/
def ofJson?
    (value : Json) :
    Option LockingScript := do
  let fields ← value.fields? ["type", "category", "content", "target", "tag", "user_nonce",
    "additional_data", "miner_address"]
  return ⟨← fields.required "type" ScriptKind.ofJson?,
    ← fields.required "category" Json.int32?,
    ← fields.required "content" Digest.ofJson?,
    ← fields.required "target" Target.ofJson?,
    ← fields.required "tag" Json.bytes?,
    ← fields.required "user_nonce" Json.uint32?,
    ← fields.required "additional_data" Json.bytes?,
    ← fields.required "miner_address" Address.ofJson?⟩

end LockingScript

namespace UnlockingScript

/-- The JSON form of an unlocking script. -/
def toJson
    (script : UnlockingScript) :
    Json :=
  .object [("type", script.kind.toJson),
    ("signature", script.signature.toJson),
    ("pubkey", script.publicKey.toJson),
    ("nonce", .ofNat script.nonce.toNat),
    ("timestamp", .ofNat script.timestamp.toNat),
    ("extra_nonce_2", .ofNat script.extraNonce₂.toNat),
    ("extra_nonce_1", .ofNat script.extraNonce₁.toNat),
    ("miner_address", Address.toJson script.minerAddress)]

/-- Read an unlocking script. -/
def ofJson?
    (value : Json) :
    Option UnlockingScript := do
  let fields ← value.fields? ["type", "signature", "pubkey", "nonce", "timestamp",
    "extra_nonce_2", "extra_nonce_1", "miner_address"]
  return ⟨← fields.required "type" ScriptKind.ofJson?,
    ← fields.required "signature" Signature.ofJson?,
    ← fields.required "pubkey" PublicKey.ofJson?,
    ← fields.required "nonce" Json.uint32?,
    ← fields.required "timestamp" Json.uint32?,
    ← fields.required "extra_nonce_2" Json.uint64?,
    ← fields.required "extra_nonce_1" Json.uint32?,
    ← fields.required "miner_address" Address.ofJson?⟩

end UnlockingScript

namespace Job

/-- The JSON form of a job. -/
def toJson
    (job : Job) :
    Json :=
  .object [("type", job.kind.toJson), ("puzzle", job.puzzle.toJson)]

/-- Read a job. -/
def ofJson?
    (value : Json) :
    Option Job := do
  let fields ← value.fields? ["type", "puzzle"]
  return ⟨← fields.required "type" ScriptKind.ofJson?,
    ← fields.required "puzzle" Puzzle.ofJson?⟩

end Job

namespace WorkerId

/-- The JSON form of a worker. -/
def toJson
    (worker : WorkerId) :
    Json :=
  .string worker.text

/-- Read a worker. -/
def ofJson?
    (value : Json) :
    Option WorkerId :=
  value.text?.bind ofText?

end WorkerId

end WorkMarket
