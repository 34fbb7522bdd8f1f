import WorkMarket.Text.Json.Reader
import WorkMarket.Text.Record.Config

/-!
# The kinds of records

`RecordKind` lists everything that has a JSON form.  `Record.canonical?` reads a
text as a record of some kind and gives the form in which that record is
written: its own fields in their own order, with what was left out filled in.
What is malformed or describes something else has no such form.
-/

namespace WorkMarket

/-- What a record describes. -/
inductive RecordKind where
  | digest
  | address
  | signature
  | publicKey
  | outpoint
  | target
  | merklePath
  | puzzle
  | solution
  | workProof
  | scriptKind
  | lockingScript
  | unlockingScript
  | job
  | worker
  | output
  | outputStatus
  | outputRecord
  | scriptRecord
  | saleStatus
  | sale
  | contentQuery
  | contentRecord
  | poolSettings
  | split
  | observation
  | goal
  | poolStatus
  | logLevel
  | logFormat
  | config
deriving DecidableEq, Repr

namespace Record

/-- Read a value and write what it describes. -/
def through
    {α : Type}
    (read : Json → Option α)
    (write : α → Json)
    (value : Json) :
    Option Json :=
  (read value).map write

/-- The written form of the record that a value describes. -/
def normal? : RecordKind → Json → Option Json
  | .digest => through Digest.ofJson? Digest.toJson
  | .address => through Address.ofJson? Address.toJson
  | .signature => through Signature.ofJson? Signature.toJson
  | .publicKey => through PublicKey.ofJson? PublicKey.toJson
  | .outpoint => through Outpoint.ofJson? Outpoint.toJson
  | .target => through Target.ofJson? Target.toJson
  | .merklePath => through MerklePath.ofJson? MerklePath.toJson
  | .puzzle => through Puzzle.ofJson? Puzzle.toJson
  | .solution => through Solution.ofJson? Solution.toJson
  | .workProof => through WorkProof.ofJson? WorkProof.toJson
  | .scriptKind => through ScriptKind.ofJson? ScriptKind.toJson
  | .lockingScript => through LockingScript.ofJson? LockingScript.toJson
  | .unlockingScript => through UnlockingScript.ofJson? UnlockingScript.toJson
  | .job => through Job.ofJson? Job.toJson
  | .worker => through WorkerId.ofJson? WorkerId.toJson
  | .output => through Output.ofJson? Output.toJson
  | .outputStatus => through OutputStatus.ofJson? OutputStatus.toJson
  | .outputRecord => through OutputRecord.ofJson? OutputRecord.toJson
  | .scriptRecord => through ScriptRecord.ofJson? ScriptRecord.toJson
  | .saleStatus => through SaleStatus.ofJson? SaleStatus.toJson
  | .sale => through Sale.ofJson? Sale.toJson
  | .contentQuery => through ContentQuery.ofJson? ContentQuery.toJson
  | .contentRecord => through ContentRecord.ofJson? ContentRecord.toJson
  | .poolSettings => through PoolSettings.ofJson? PoolSettings.toJson
  | .split => through Split.ofJson? Split.toJson
  | .observation => through Observation.ofJson? Observation.toJson
  | .goal => through Goal.ofJson? Goal.toJson
  | .poolStatus => through PoolStatus.ofJson? PoolStatus.toJson
  | .logLevel => through (LogLevel.ofFormat? Json.format) LogLevel.toJson
  | .logFormat => through (LogFormat.ofFormat? Json.format) LogFormat.toJson
  | .config => through (Config.ofFormat? Json.format) Config.toJson

/-- The written form of the record that a text describes. -/
def canonical?
    (kind : RecordKind)
    (text : String) :
    Option Json :=
  (Json.read? text).bind (normal? kind)

end Record
end WorkMarket
