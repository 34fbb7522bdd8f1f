import WorkMarket.Pow.Target
import WorkMarket.Script.Cursor
import WorkMarket.Script.Kind
import WorkMarket.Script.Verification

/-!
# Locking scripts

A locking script publishes work: it pushes a marker, for contracts the
miner's address, and the fields of the puzzle, and ends with the verification
program.  `write` compiles one and `read` matches bytes against the template;
bytes that do not fit read as the absent script.
-/

namespace WorkMarket

/-- A script that publishes work. -/
structure LockingScript where
  /-- Whom the work is for. -/
  kind : ScriptKind
  category : Int32
  content : Digest
  target : Target
  /-- A free label for searches. -/
  tag : Bytes
  userNonce : UInt32
  /-- Free data. -/
  data : Bytes
  /-- The miner a contract is bound to; absent for bounties. -/
  minerAddress : Address
deriving DecidableEq

namespace LockingScript

/-- The marker that opens every work script. -/
def marker : Bytes :=
  Text.utf8 "boostpow"

/-- The longest tag. -/
def maxTagSize : Nat := 20

/-- The script that stands for none. -/
def absent : LockingScript :=
  ⟨.invalid, 0, Digest.absent, ⟨0⟩, [], 0, [], Address.absent⟩

instance : Inhabited LockingScript := ⟨absent⟩

/-- A script as it is given, or none if its tag is too long. -/
def tagged
    (script : LockingScript) :
    LockingScript :=
  if maxTagSize < script.tag.length then absent else script

/-- Work open to every miner. -/
def bounty
    (category : Int32)
    (content : Digest)
    (target : Target)
    (tag : Bytes)
    (userNonce : UInt32)
    (data : Bytes) :
    LockingScript :=
  tagged ⟨.bounty, category, content, target, tag, userNonce, data, Address.absent⟩

/-- Work bound to one miner. -/
def contract
    (category : Int32)
    (content : Digest)
    (target : Target)
    (tag : Bytes)
    (userNonce : UInt32)
    (data : Bytes)
    (minerAddress : Address) :
    LockingScript :=
  tagged ⟨.contract, category, content, target, tag, userNonce, data, minerAddress⟩

/-- Whether this is a work script. -/
def isValid
    (script : LockingScript) :
    Bool :=
  script.kind.isValid

/-- The push of the miner's address, which only contracts have. -/
def addressPush
    (script : LockingScript) :
    Program :=
  if script.kind = .contract then [.push script.minerAddress.toList] else []

/-- The instructions of a script. -/
def program
    (script : LockingScript) :
    Program :=
  [.push marker, .op Opcode.drop] ++ script.addressPush ++
    [.push (LittleEndian.ofInt32 script.category),
      .push script.content.toList,
      .push script.target.toBytes,
      .push script.tag,
      .push (LittleEndian.ofUInt32 script.userNonce),
      .push script.data] ++
    Verification.program

/-- The bytes of a script; the absent script has none. -/
def write
    (script : LockingScript) :
    Bytes :=
  if script.isValid then script.program.compile else []

/-- The script of the fields that were pushed, if each is of its size. -/
def ofFields?
    (address? : Option Bytes)
    (category content target tag userNonce data : Bytes) :
    Option LockingScript := do
  let content ← FixedBytes.ofList? 32 content
  let (kind, address) ← match address? with
    | some bytes => (FixedBytes.ofList? 20 bytes).map fun address => (ScriptKind.contract, address)
    | none => some (.bounty, Address.absent)
  if maxTagSize < tag.length then none
  else
    some ⟨kind, LittleEndian.toInt32 category, content, Target.ofBytes target, tag,
      LittleEndian.toUInt32 userNonce, data, address⟩

/-- Match a program against the template. -/
def template : Matcher LockingScript := do
  Matcher.data marker
  Matcher.sequence [.op Opcode.drop]
  let address? ← Matcher.optionalPushOfSize 20
  let category ← Matcher.pushOfSize 4
  let content ← Matcher.pushOfSize 32
  let target ← Matcher.pushOfSize 4
  let tag ← Matcher.push
  let userNonce ← Matcher.pushOfSize 4
  let data ← Matcher.push
  Matcher.sequence Verification.program
  Matcher.atEnd
  OptionT.mk (pure (ofFields? address? category content target tag userNonce data))

/-- The script that bytes denote, if they fit the template. -/
def read?
    (bytes : Bytes) :
    Option LockingScript :=
  (Program.decompile bytes).bind template.answer

/-- The script that bytes denote; anything else is no work script. -/
def read
    (bytes : Bytes) :
    LockingScript :=
  (read? bytes).getD absent

/-- The name of a script, which is the hash of its bytes. -/
def id
    (script : LockingScript) :
    Digest :=
  if script.isValid then hash256 script.write else Digest.absent

/-- The exact difficulty of the published target. -/
def difficulty
    (script : LockingScript) :
    Except Failure Difficulty :=
  script.target.difficulty

/-- Whether two scripts are the same but for the encoding of the target. -/
def equivalent
    (left right : LockingScript) :
    Bool :=
  left.kind = right.kind && left.category = right.category && left.content = right.content &&
    left.target.equivalent right.target && left.tag = right.tag &&
    left.userNonce = right.userNonce && left.data = right.data &&
    left.minerAddress = right.minerAddress

/-- The fields of a script for people to read. -/
def describe
    (script : LockingScript) :
    String :=
  let fields :=
    match script.kind with
    | .invalid => []
    | kind =>
        (if kind = .contract then ["miner_address: " ++ script.minerAddress.toHex] else []) ++
          ["category: " ++ toString script.category.toInt,
            "content: " ++ script.content.toHex,
            "target: " ++ script.target.toHex,
            "tag: " ++ Hex.encode script.tag,
            "user_nonce: " ++ toString script.userNonce.toNat,
            "additional_data: " ++ Hex.encode script.data]
  "OutputScript \x7b " ++ Text.joined ", " (("type: " ++ script.kind.text) :: fields) ++ " \x7d"

end LockingScript

end WorkMarket
