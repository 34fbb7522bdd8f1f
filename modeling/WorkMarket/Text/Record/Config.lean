import WorkMarket.Command.Config
import WorkMarket.Text.Record.Market
import WorkMarket.Text.Yaml.Writer

/-!
# The configuration in texts

A configuration is a record in JSON and in YAML alike.  Whatever is missing is
as usual.
-/

namespace WorkMarket

/-- A word that stands for one of several values. -/
def Format.choice?
    {ν α : Type}
    (format : Format ν)
    (choices : List α)
    (textOf : α → String)
    (value : ν) :
    Option α :=
  (format.word? value).bind fun word => choices.find? fun choice => textOf choice = word

namespace LogLevel

/-- The JSON form of a level. -/
def toJson
    (level : LogLevel) :
    Json :=
  .string level.text

/-- Read a level. -/
def ofFormat?
    {ν : Type}
    (format : Format ν)
    (value : ν) :
    Option LogLevel :=
  format.choice? all text value

end LogLevel

namespace LogFormat

/-- The JSON form of a layout. -/
def toJson
    (layout : LogFormat) :
    Json :=
  .string layout.text

/-- Read a layout. -/
def ofFormat?
    {ν : Type}
    (format : Format ν)
    (value : ν) :
    Option LogFormat :=
  format.choice? all text value

end LogFormat

namespace Config

/-- The fields of a configuration. -/
def fieldNames : List String :=
  ["log_level", "log_format", "contract_queue_time", "max_in_progress",
    "max_in_progress_difficulty", "min_solve_time", "cost_per_difficulty", "constant_cost",
    "miner_address", "solve_nonces"]

/-- Read a configuration. -/
def ofFormat?
    {ν : Type}
    (format : Format ν)
    (value : ν) :
    Option (Config Float) := do
  let fields ← format.fields? fieldNames value
  let standard : Config Float := usual
  return ⟨← fields.defaulted "log_level" standard.logLevel (LogLevel.ofFormat? format),
    ← fields.defaulted "log_format" standard.logFormat (LogFormat.ofFormat? format),
    ← fields.defaulted "contract_queue_time" standard.queueTime format.text?,
    ← fields.defaulted "max_in_progress" standard.maxJobs format.natural?,
    ← fields.defaulted "max_in_progress_difficulty" standard.maxDifficulty format.real?,
    ← fields.defaulted "min_solve_time" standard.minTime format.text?,
    ⟨← fields.defaulted "cost_per_difficulty" standard.costs.perDifficulty format.real?,
      ← fields.defaulted "constant_cost" standard.costs.constant format.real?⟩,
    ← fields.optional "miner_address" format.content? format.text?,
    ← fields.defaulted "solve_nonces" standard.nonces format.natural?⟩

/-- The JSON form of a configuration. -/
def toJson
    (config : Config Float) :
    Json :=
  .object [("log_level", config.logLevel.toJson),
    ("log_format", config.logFormat.toJson),
    ("contract_queue_time", .string config.queueTime),
    ("max_in_progress", .ofNat config.maxJobs),
    ("max_in_progress_difficulty", .real config.maxDifficulty),
    ("min_solve_time", .string config.minTime),
    ("cost_per_difficulty", .real config.costs.perDifficulty),
    ("constant_cost", .real config.costs.constant),
    ("miner_address", .ofOption .string config.minerAddress),
    ("solve_nonces", .ofNat config.nonces)]

/-- The YAML text of a configuration. -/
def toYaml
    (config : Config Float) :
    String :=
  Yaml.writeMembers [("log_level", Yaml.writeText config.logLevel.text),
    ("log_format", Yaml.writeText config.logFormat.text),
    ("contract_queue_time", Yaml.writeText config.queueTime),
    ("max_in_progress", toString config.maxJobs),
    ("max_in_progress_difficulty", Yaml.writeReal config.maxDifficulty),
    ("min_solve_time", Yaml.writeText config.minTime),
    ("cost_per_difficulty", Yaml.writeReal config.costs.perDifficulty),
    ("constant_cost", Yaml.writeReal config.costs.constant),
    ("miner_address", (config.minerAddress.map Yaml.writeText).getD "null"),
    ("solve_nonces", toString config.nonces)]

end Config

end WorkMarket
