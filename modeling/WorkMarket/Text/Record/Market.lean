import WorkMarket.Market.Pool
import WorkMarket.Text.Record.Work
import WorkMarket.Text.Timestamp

/-!
# The market in JSON

Durations and instants are written as texts, amounts plainly, and everything
else as records in the order of the fields.
-/

namespace WorkMarket

namespace Duration

/-- The JSON form of a duration. -/
def toJson
    (duration : Duration) :
    Json :=
  .string (DurationText.write duration)

/-- Read a duration. -/
def ofJson?
    (value : Json) :
    Option Duration :=
  value.text?.bind fun text => (DurationText.read text).toOption

end Duration

namespace Instant

/-- The JSON form of an instant. -/
def toJson
    (instant : Instant) :
    Json :=
  .string (Timestamp.write instant)

/-- Read an instant. -/
def ofJson?
    (value : Json) :
    Option Instant :=
  value.text?.bind Timestamp.read

end Instant

namespace Output

/-- The JSON form of an output. -/
def toJson
    (output : Output) :
    Json :=
  .object [("outpoint", output.outpoint.toJson),
    ("script", output.script.toJson),
    ("value", .ofNat output.value.toNat),
    ("id", Digest.toJson output.id)]

/-- Read an output. -/
def ofJson?
    (value : Json) :
    Option Output := do
  let fields ← value.fields? ["outpoint", "script", "value", "id"]
  return ⟨← fields.required "outpoint" Outpoint.ofJson?,
    ← fields.required "script" LockingScript.ofJson?,
    ← fields.required "value" Json.uint64?,
    ← fields.required "id" Digest.ofJson?⟩

end Output

namespace OutputStatus

/-- The JSON form of a status. -/
def toJson
    (status : OutputStatus) :
    Json :=
  .string status.text

/-- Read a status. -/
def ofJson?
    (value : Json) :
    Option OutputStatus :=
  value.choice? all text

end OutputStatus

namespace OutputRecord

/-- The JSON form of a recorded output. -/
def toJson
    (output : OutputRecord) :
    Json :=
  .object [("value", .ofNat output.value.toNat),
    ("outpoint", output.outpoint.toJson),
    ("redeemed", .ofOption Digest.toJson output.spender)]

/-- Read a recorded output. -/
def ofJson?
    (value : Json) :
    Option OutputRecord := do
  let fields ← value.fields? ["value", "outpoint", "redeemed"]
  return ⟨← fields.required "value" Json.uint64?,
    ← fields.required "outpoint" Outpoint.ofJson?,
    ← fields.optional "redeemed" Json.content? Digest.ofJson?⟩

end OutputRecord

namespace ScriptRecord

/-- The JSON form of what is known about a script. -/
def toJson
    (record : ScriptRecord Float) :
    Json :=
  .object [("status", record.status.toJson),
    ("expected_time", .real record.expectedTime),
    ("difficulty", .real record.difficulty),
    ("outputs", .array (record.outputs.map OutputRecord.toJson))]

/-- Read what is known about a script. -/
def ofJson?
    (value : Json) :
    Option (ScriptRecord Float) := do
  let fields ← value.fields? ["status", "expected_time", "difficulty", "outputs"]
  return ⟨← fields.required "status" OutputStatus.ofJson?,
    ← fields.required "expected_time" Json.real?,
    ← fields.required "difficulty" Json.real?,
    ← fields.required "outputs" (Json.list? OutputRecord.ofJson?)⟩

end ScriptRecord

namespace SaleStatus

/-- The JSON form of a status. -/
def toJson
    (status : SaleStatus) :
    Json :=
  .string status.text

/-- Read a status. -/
def ofJson?
    (value : Json) :
    Option SaleStatus :=
  value.choice? all text

end SaleStatus

namespace Sale

/-- The JSON form of a sale.  Its key is never written. -/
def toJson
    (sale : Sale) :
    Json :=
  .object [("status", sale.status.toJson),
    ("created_at", sale.createdAt.toJson),
    ("expires_at", sale.expiresAt.toJson),
    ("job", sale.job.toJson)]

/-- Read a sale.  Its key is never read. -/
def ofJson?
    (value : Json) :
    Option Sale := do
  let fields ← value.fields? ["status", "created_at", "expires_at", "job"]
  return ⟨← fields.required "status" SaleStatus.ofJson?,
    ← fields.required "created_at" Instant.ofJson?,
    ← fields.required "expires_at" Instant.ofJson?,
    ← fields.required "job" Job.ofJson?,
    default⟩

end Sale

namespace ContentQuery

/-- The JSON form of a query. -/
def toJson
    (query : ContentQuery) :
    Json :=
  .object [("digest", .ofOption Digest.toJson query.digest),
    ("title", .ofOption Digest.toJson query.title),
    ("tag", .ofOption (fun tag => .array (tag.map fun byte => .ofNat byte.toNat)) query.tag),
    ("begin", .ofOption Instant.toJson query.earliest),
    ("end", .ofOption Instant.toJson query.latest),
    ("first_record", .ofNat query.firstRecord.toNat),
    ("max_records", .ofNat query.maxRecords.toNat)]

/-- Read a query. -/
def ofJson?
    (value : Json) :
    Option ContentQuery := do
  let fields ← value.fields? ["digest", "title", "tag", "begin", "end", "first_record",
    "max_records"]
  return ⟨← fields.optional "digest" Json.content? Digest.ofJson?,
    ← fields.optional "title" Json.content? Digest.ofJson?,
    ← fields.optional "tag" Json.content?
      (Json.list? fun byte => (byte.natural? 8).map UInt8.ofNat),
    ← fields.optional "begin" Json.content? Instant.ofJson?,
    ← fields.optional "end" Json.content? Instant.ofJson?,
    ← fields.required "first_record" Json.uint64?,
    ← fields.required "max_records" Json.uint64?⟩

end ContentQuery

namespace ContentRecord

/-- The JSON form of a record of content. -/
def toJson
    (record : ContentRecord Float) :
    Json :=
  .object [("digest", Digest.toJson record.digest),
    ("scripts", .array (record.scripts.map ScriptRecord.toJson)),
    ("total", .real record.total)]

/-- Read a record of content. -/
def ofJson?
    (value : Json) :
    Option (ContentRecord Float) := do
  let fields ← value.fields? ["digest", "scripts", "total"]
  return ⟨← fields.required "digest" Digest.ofJson?,
    ← fields.required "scripts" (Json.list? ScriptRecord.ofJson?),
    ← fields.required "total" Json.real?⟩

end ContentRecord

namespace PoolSettings

/-- The JSON form of settings. -/
def toJson
    (settings : PoolSettings Float) :
    Json :=
  .object [("contract_queue_time", settings.queueTime.toJson),
    ("max_in_progress", .ofNat settings.limits.maxJobs),
    ("max_in_progress_difficulty", .real settings.limits.maxDifficulty),
    ("min_solve_time", settings.limits.minTime.toJson),
    ("cost_per_difficulty", .real settings.costs.perDifficulty),
    ("constant_cost", .real settings.costs.constant)]

/-- Read settings. -/
def ofJson?
    (value : Json) :
    Option (PoolSettings Float) := do
  let fields ← value.fields? ["contract_queue_time", "max_in_progress",
    "max_in_progress_difficulty", "min_solve_time", "cost_per_difficulty", "constant_cost"]
  return ⟨← fields.required "contract_queue_time" Duration.ofJson?,
    ⟨← fields.required "max_in_progress" (Json.natural? 64),
      ← fields.required "max_in_progress_difficulty" Json.real?,
      ← fields.required "min_solve_time" Duration.ofJson?⟩,
    ⟨← fields.required "cost_per_difficulty" Json.real?,
      ← fields.required "constant_cost" Json.real?⟩⟩

end PoolSettings

namespace Split

/-- The JSON form of a split. -/
def toJson
    (split : Split Float) :
    Json :=
  .object [("blocks", .real split.blocks),
    ("boost_bounty", .real split.bounties),
    ("boost_contract", .real split.contracts)]

/-- Read a split. -/
def ofJson?
    (value : Json) :
    Option (Split Float) := do
  let fields ← value.fields? ["blocks", "boost_bounty", "boost_contract"]
  return ⟨← fields.required "blocks" Json.real?,
    ← fields.required "boost_bounty" Json.real?,
    ← fields.required "boost_contract" Json.real?⟩

end Split

namespace Observation

/-- The JSON form of an observation. -/
def toJson
    (observation : Observation Float) :
    Json :=
  .object [("blocks", .real observation.blocks),
    ("hashpower_price_satoshis_per_difficulty", .real observation.price),
    ("bounty_queue_profitable_difficulty", .real observation.bountyDifficulty),
    ("contract_queue_difficulty", .real observation.contractDifficulty),
    ("current_assignments", observation.current.toJson)]

/-- Read an observation. -/
def ofJson?
    (value : Json) :
    Option (Observation Float) := do
  let fields ← value.fields? ["blocks", "hashpower_price_satoshis_per_difficulty",
    "bounty_queue_profitable_difficulty", "contract_queue_difficulty", "current_assignments"]
  return ⟨← fields.required "blocks" Json.real?,
    ← fields.required "hashpower_price_satoshis_per_difficulty" Json.real?,
    ← fields.required "bounty_queue_profitable_difficulty" Json.real?,
    ← fields.required "contract_queue_difficulty" Json.real?,
    ← fields.required "current_assignments" Split.ofJson?⟩

end Observation

namespace Goal

/-- The JSON form of a goal. -/
def toJson
    (goal : Goal Float) :
    Json :=
  .object [("ideal_assignment", goal.shares.toJson),
    ("contract_price_per_difficulty", .real goal.price),
    ("contract_queue_time", goal.queueTime.toJson)]

/-- Read a goal. -/
def ofJson?
    (value : Json) :
    Option (Goal Float) := do
  let fields ← value.fields? ["ideal_assignment", "contract_price_per_difficulty",
    "contract_queue_time"]
  return ⟨← fields.required "ideal_assignment" Split.ofJson?,
    ← fields.required "contract_price_per_difficulty" Json.real?,
    ← fields.required "contract_queue_time" Duration.ofJson?⟩

end Goal

namespace PoolStatus

/-- The JSON form of a summary. -/
def toJson
    (status : PoolStatus Float) :
    Json :=
  .object [("contracts_queued", .ofNat status.contractsQueued),
    ("contract_difficulty", .real status.contractDifficulty),
    ("bounties_queued", .ofNat status.bountiesQueued),
    ("bounty_difficulty", .real status.bountyDifficulty),
    ("profitable_bounty_difficulty", .real status.profitableDifficulty),
    ("in_progress", .ofNat status.inProgress),
    ("in_progress_difficulty", .real status.inProgressDifficulty),
    ("goal", status.goal.toJson)]

/-- Read a summary. -/
def ofJson?
    (value : Json) :
    Option (PoolStatus Float) := do
  let fields ← value.fields? ["contracts_queued", "contract_difficulty", "bounties_queued",
    "bounty_difficulty", "profitable_bounty_difficulty", "in_progress",
    "in_progress_difficulty", "goal"]
  return ⟨← fields.required "contracts_queued" (Json.natural? 64),
    ← fields.required "contract_difficulty" Json.real?,
    ← fields.required "bounties_queued" (Json.natural? 64),
    ← fields.required "bounty_difficulty" Json.real?,
    ← fields.required "profitable_bounty_difficulty" Json.real?,
    ← fields.required "in_progress" (Json.natural? 64),
    ← fields.required "in_progress_difficulty" Json.real?,
    ← fields.required "goal" Goal.ofJson?⟩

end PoolStatus

end WorkMarket
