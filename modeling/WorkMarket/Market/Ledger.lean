import WorkMarket.Market.Keyed
import WorkMarket.Number.Instant
import WorkMarket.Number.Scalar
import WorkMarket.Script.Locking

/-!
# The ledger of outputs

The ledger records, for every script it has seen, which outputs pay it and
which of them are spent.  It finds a script by its outputs, and answers
queries about the content that scripts are about.
-/

namespace WorkMarket

/-- What is known about the outputs of a script. -/
inductive OutputStatus where
  /-- Never seen. -/
  | unknown
  /-- Known, but without outputs. -/
  | unspent
  /-- There are outputs, and none is spent. -/
  | unredeemed
  /-- Every output is spent. -/
  | redeemed
  /-- Some outputs are spent. -/
  | partiallyRedeemed
deriving DecidableEq, Inhabited

namespace OutputStatus

/-- The word for a status. -/
def text : OutputStatus → String
  | unknown => "unknown"
  | unspent => "unspent"
  | unredeemed => "unredeemed"
  | redeemed => "redeemed"
  | partiallyRedeemed => "partially_redeemed"

/-- Every status. -/
def all : List OutputStatus :=
  [unknown, unspent, unredeemed, redeemed, partiallyRedeemed]

end OutputStatus

/-- An output that pays a script. -/
structure OutputRecord where
  value : UInt64
  outpoint : Outpoint
  /-- The transaction that spent it. -/
  spender : Option Digest
deriving DecidableEq, Inhabited

/-- What the ledger knows about a script. -/
structure ScriptRecord (α : Type) where
  status : OutputStatus
  /-- The seconds a solution should take; zero once redeemed. -/
  expectedTime : α
  difficulty : α
  /-- The outputs in the order in which they were recorded. -/
  outputs : List OutputRecord
deriving DecidableEq

namespace ScriptRecord

variable {α : Type} [Scalar α]

/-- Nothing known. -/
def unknown : ScriptRecord α :=
  ⟨.unknown, Scalar.zero, Scalar.zero, []⟩

instance : Inhabited (ScriptRecord α) := ⟨unknown⟩

/-- What is paid for a unit of difficulty. -/
def price
    (record : ScriptRecord α) :
    α :=
  if record.difficulty ≤ Scalar.zero then Scalar.zero
  else
    Scalar.sum (record.outputs.map fun output => Scalar.ofNat output.value.toNat) /
      record.difficulty

/-- The status that the outputs of a known script show. -/
def statusOf
    (outputs : List OutputRecord) :
    OutputStatus :=
  let spent := outputs.countP fun output => output.spender.isSome
  if outputs.isEmpty then .unspent
  else if spent = 0 then .unredeemed
  else if spent = outputs.length then .redeemed
  else .partiallyRedeemed

/-- Bring the status up to date with the outputs. -/
def refreshed
    (record : ScriptRecord α) :
    ScriptRecord α :=
  let status := statusOf record.outputs
  { record with
    status := status
    expectedTime := if status = .redeemed then Scalar.zero else record.expectedTime }

end ScriptRecord

/-- An entry of the ledger. -/
structure LedgerEntry (α : Type) where
  /-- The script, once it was put. -/
  script : Option LockingScript
  firstSeen : Instant
  record : ScriptRecord α
deriving DecidableEq

/-- A question about content.  What is left out matches everything. -/
structure ContentQuery where
  digest : Option Digest
  /-- The hash of the free data. -/
  title : Option Digest
  tag : Option Bytes
  /-- First seen at this instant or later. -/
  earliest : Option Instant
  /-- First seen before this instant. -/
  latest : Option Instant
  /-- How many records are passed over. -/
  firstRecord : UInt64
  /-- How many records are wanted at most; zero wants all. -/
  maxRecords : UInt64
deriving DecidableEq, Inhabited

/-- Every script about one content. -/
structure ContentRecord (α : Type) where
  digest : Digest
  scripts : List (ScriptRecord α)
  /-- The sum of the difficulties. -/
  total : α
deriving DecidableEq

/-- The scripts and outputs that were seen. -/
structure Ledger (α : Type) where
  /-- The entries by the names of their scripts. -/
  entries : Keyed Digest (LedgerEntry α)
  /-- The script of every recorded output. -/
  owners : Keyed Outpoint Digest
deriving DecidableEq

namespace Ledger

variable {α : Type} [Scalar α]

/-- Nothing seen. -/
def empty : Ledger α :=
  ⟨Keyed.empty, Keyed.empty⟩

instance : Inhabited (Ledger α) := ⟨empty⟩

/-- What is known about a script. -/
def get
    (ledger : Ledger α)
    (id : Digest) :
    ScriptRecord α :=
  ((ledger.entries.get? id).map LedgerEntry.record).getD ScriptRecord.unknown

/-- The entry of a script, which is a new one at its first sight. -/
def entryAt
    (ledger : Ledger α)
    (now : Instant)
    (id : Digest) :
    LedgerEntry α :=
  (ledger.entries.get? id).getD ⟨none, now, ScriptRecord.unknown⟩

/-- Record an output of a script.  The answer is whether it was new and names
something. -/
def register
    (ledger : Ledger α)
    (now : Instant)
    (id : Digest)
    (value : UInt64)
    (outpoint : Outpoint) :
    Bool × Ledger α :=
  if !id.isValid || !outpoint.isValid || ledger.owners.get? outpoint = some id then
    (false, ledger)
  else
    let entry := ledger.entryAt now id
    let output : OutputRecord := ⟨value, outpoint, none⟩
    let record := { entry.record with outputs := entry.record.outputs ++ [output] }
    (true,
      ⟨ledger.entries.put id { entry with record := record.refreshed },
        ledger.owners.put outpoint id⟩)

/-- Record a script.  The answer is whether it is a work script. -/
def put
    (ledger : Ledger α)
    (now : Instant)
    (script : LockingScript) :
    Bool × Ledger α :=
  if script.isValid then
    let difficulty :=
      match script.difficulty with
      | .ok difficulty => difficulty.view α
      | .error _ => Scalar.zero
    let entry := ledger.entryAt now script.id
    let record := { entry.record with difficulty := difficulty }
    (true,
      { ledger with
        entries := ledger.entries.put script.id
          { entry with script := some script, record := record.refreshed } })
  else (false, ledger)

/-- Mark an output as spent.  The answer is its script and the status that the
script has now. -/
def redeem
    (ledger : Ledger α)
    (outpoint : Outpoint)
    (spender : Digest) :
    Option (Digest × OutputStatus) × Ledger α :=
  match ledger.owners.get? outpoint with
  | none => (none, ledger)
  | some id =>
      match ledger.entries.get? id with
      | none => (none, ledger)
      | some entry =>
          let outputs := entry.record.outputs.map fun output =>
            if output.outpoint = outpoint then { output with spender := some spender }
            else output
          let record := { entry.record with outputs := outputs }.refreshed
          (some (id, record.status),
            { ledger with entries := ledger.entries.put id { entry with record := record } })

end Ledger

namespace ContentQuery

/-- Whether a wanted value, if there is one, is the actual one. -/
def admits
    {β : Type}
    [DecidableEq β]
    (wanted : Option β)
    (actual : β) :
    Bool :=
  wanted.all fun value => value = actual

/-- Whether a script first seen at some instant is asked for. -/
def matches?
    (query : ContentQuery)
    (script : LockingScript)
    (firstSeen : Instant) :
    Bool :=
  admits query.digest script.content && admits query.title (hash256 script.data) &&
    admits query.tag script.tag &&
    (query.earliest.all fun earliest => !firstSeen.isBefore earliest) &&
    query.latest.all fun latest => firstSeen.isBefore latest

end ContentQuery

namespace ContentRecord

variable {α : Type} [Scalar α]

/-- Add a script to the record of its content; records stand in ascending
order of content. -/
def insert
    (content : Digest)
    (record : ScriptRecord α) :
    List (ContentRecord α) → List (ContentRecord α)
  | [] => [⟨content, [record], Scalar.zero + record.difficulty⟩]
  | first :: rest =>
      if first.digest = content then
        ⟨content, first.scripts ++ [record], first.total + record.difficulty⟩ :: rest
      else if content.precedes first.digest then
        ⟨content, [record], Scalar.zero + record.difficulty⟩ :: first :: rest
      else first :: insert content record rest

end ContentRecord

namespace Ledger

variable {α : Type} [Scalar α]

/-- The scripts a query asks for, with their records. -/
def matching
    (ledger : Ledger α)
    (query : ContentQuery) :
    List (LockingScript × ScriptRecord α) :=
  ledger.entries.values.filterMap fun entry =>
    entry.script.bind fun script =>
      if query.matches? script entry.firstSeen then some (script, entry.record) else none

/-- Every record of content a query asks for, in ascending order. -/
def contents
    (ledger : Ledger α)
    (query : ContentQuery) :
    List (ContentRecord α) :=
  (ledger.matching query).foldl
    (fun records found => ContentRecord.insert found.1.content found.2 records) []

/-- One page of the records that a query asks for. -/
def query
    (ledger : Ledger α)
    (query : ContentQuery) :
    List (ContentRecord α) :=
  let wanted := (ledger.contents query).drop query.firstRecord.toNat
  if query.maxRecords = 0 then wanted else wanted.take query.maxRecords.toNat

end Ledger

end WorkMarket
