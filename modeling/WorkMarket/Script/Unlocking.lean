import WorkMarket.Chain.Key
import WorkMarket.Pow.Puzzle
import WorkMarket.Script.Cursor
import WorkMarket.Script.Kind

/-!
# Unlocking scripts

An unlocking script redeems an output: it pushes a signature, the redeemer's
key and the solution.  A bounty's redeemer pushes a miner's address as well;
a contract has named it already.
-/

namespace WorkMarket

/-- A script that carries a solution. -/
structure UnlockingScript where
  /-- What the script redeems. -/
  kind : ScriptKind
  signature : Signature
  publicKey : PublicKey
  nonce : UInt32
  timestamp : UInt32
  extraNonce₂ : UInt64
  extraNonce₁ : UInt32
  /-- The miner's address; absent for contracts. -/
  minerAddress : Address
deriving DecidableEq

namespace UnlockingScript

/-- The script that stands for none. -/
def absent : UnlockingScript :=
  ⟨.invalid, ⟨[]⟩, ⟨[]⟩, 0, 0, 0, 0, Address.absent⟩

instance : Inhabited UnlockingScript := ⟨absent⟩

/-- Redeem a bounty. -/
def bounty
    (signature : Signature)
    (publicKey : PublicKey)
    (solution : Solution)
    (minerAddress : Address) :
    UnlockingScript :=
  ⟨.bounty, signature, publicKey, solution.nonce, solution.timestamp, solution.extraNonce₂,
    solution.extraNonce₁, minerAddress⟩

/-- Redeem a contract. -/
def contract
    (signature : Signature)
    (publicKey : PublicKey)
    (solution : Solution) :
    UnlockingScript :=
  ⟨.contract, signature, publicKey, solution.nonce, solution.timestamp, solution.extraNonce₂,
    solution.extraNonce₁, Address.absent⟩

/-- Redeem a script of either kind; the miner of a bounty is the owner of the
key. -/
def ofSolution
    (signature : Signature)
    (publicKey : PublicKey)
    (solution : Solution) :
    ScriptKind → UnlockingScript
  | .invalid => absent
  | .bounty => bounty signature publicKey solution publicKey.address
  | .contract => contract signature publicKey solution

/-- Whether this redeems a work script. -/
def isValid
    (script : UnlockingScript) :
    Bool :=
  script.kind.isValid

/-- The solution that is carried. -/
def solution
    (script : UnlockingScript) :
    Solution :=
  ⟨script.timestamp, script.nonce, script.extraNonce₁, script.extraNonce₂⟩

/-- The push of the miner's address, which only bounties need. -/
def addressPush
    (script : UnlockingScript) :
    Program :=
  if script.kind = .bounty then [.push script.minerAddress.toList] else []

/-- The instructions of a script. -/
def program
    (script : UnlockingScript) :
    Program :=
  [.push script.signature.bytes,
    .push script.publicKey.bytes,
    .push (LittleEndian.ofUInt32 script.nonce),
    .push (LittleEndian.ofUInt32 script.timestamp),
    .push (LittleEndian.ofUInt64 script.extraNonce₂),
    .push (LittleEndian.ofUInt32 script.extraNonce₁)] ++
    script.addressPush

/-- The bytes of a script; the absent script has none. -/
def write
    (script : UnlockingScript) :
    Bytes :=
  if script.isValid then script.program.compile else []

/-- The script of the fields that were pushed. -/
def ofFields?
    (signature publicKey nonce timestamp extraNonce₂ extraNonce₁ : Bytes)
    (address? : Option Bytes) :
    Option UnlockingScript := do
  let (kind, address) ← match address? with
    | some bytes => (FixedBytes.ofList? 20 bytes).map fun address => (ScriptKind.bounty, address)
    | none => some (.contract, Address.absent)
  return ⟨kind, ⟨signature⟩, ⟨publicKey⟩, LittleEndian.toUInt32 nonce,
    LittleEndian.toUInt32 timestamp, LittleEndian.toUInt64 extraNonce₂,
    LittleEndian.toUInt32 extraNonce₁, address⟩

/-- Match a program against the template. -/
def template : Matcher UnlockingScript := do
  let signature ← Matcher.push
  let publicKey ←
    Matcher.pushOfSize PublicKey.compressedSize <|> Matcher.pushOfSize PublicKey.fullSize
  let nonce ← Matcher.pushOfSize 4
  let timestamp ← Matcher.pushOfSize 4
  let extraNonce₂ ← Matcher.pushOfSize 8
  let extraNonce₁ ← Matcher.pushOfSize 4
  let address? ← Matcher.optionalPushOfSize 20
  Matcher.atEnd
  OptionT.mk
    (pure (ofFields? signature publicKey nonce timestamp extraNonce₂ extraNonce₁ address?))

/-- The script that bytes denote, if they fit the template. -/
def read?
    (bytes : Bytes) :
    Option UnlockingScript :=
  (Program.decompile bytes).bind template.answer

/-- The script that bytes denote; anything else redeems no work. -/
def read
    (bytes : Bytes) :
    UnlockingScript :=
  (read? bytes).getD absent

/-- The fields of a script for people to read. -/
def describe
    (script : UnlockingScript) :
    String :=
  let fields :=
    match script.kind with
    | .invalid => []
    | kind =>
        ["signature: " ++ script.signature.toHex,
          "pubkey: " ++ script.publicKey.toHex,
          "nonce: " ++ toString script.nonce.toNat,
          "timestamp: " ++ toString script.timestamp.toNat,
          "extra_nonce_2: " ++ toString script.extraNonce₂.toNat,
          "extra_nonce_1: " ++ toString script.extraNonce₁.toNat] ++
          (if kind = .bounty then ["miner_address: " ++ script.minerAddress.toHex] else [])
  "InputScript \x7b " ++ Text.joined ", " (("type: " ++ script.kind.text) :: fields) ++ " \x7d"

end UnlockingScript

end WorkMarket
