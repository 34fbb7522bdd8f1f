import WorkMarket.Market.Pool
import WorkMarket.Pow.NonceSearch

/-!
# Configuration

A configuration is what the command line and a file can set.  Durations and the
miner's address are kept as they were written, and `check` says what is wrong
with them.  The command line wins over the file where it asks for something
unusual.
-/

namespace WorkMarket

/-- How much is logged. -/
inductive LogLevel where
  | error
  | warn
  | info
  | debug
  | trace
deriving DecidableEq

namespace LogLevel

/-- From the fewest to the most messages. -/
def all : List LogLevel :=
  [.error, .warn, .info, .debug, .trace]

/-- The word for a level. -/
def text : LogLevel → String
  | .error => "error"
  | .warn => "warn"
  | .info => "info"
  | .debug => "debug"
  | .trace => "trace"

end LogLevel

/-- How messages are laid out. -/
inductive LogFormat where
  /-- One line for each. -/
  | compact
  /-- Several lines for each. -/
  | pretty
  /-- One JSON text for each. -/
  | json
deriving DecidableEq

namespace LogFormat

/-- Every layout. -/
def all : List LogFormat :=
  [.compact, .pretty, .json]

/-- The word for a layout. -/
def text : LogFormat → String
  | .compact => "compact"
  | .pretty => "pretty"
  | .json => "json"

end LogFormat

namespace CostModel

variable {α : Type} [Scalar α]

/-- Costs must not be negative, and some work must cost something. -/
def check
    (costs : CostModel α) :
    Except Failure Unit :=
  if ¬ (Scalar.zero ≤ costs.perDifficulty ∧ Scalar.zero ≤ costs.constant) then
    .error .negativeCost
  else if Scalar.same costs.perDifficulty Scalar.zero && Scalar.same costs.constant Scalar.zero
    then .error .costFree
  else .ok ()

end CostModel

/-- What the command line and a file can set. -/
structure Config (α : Type) where
  logLevel : LogLevel
  logFormat : LogFormat
  /-- How long the queued contracts should take, as it was written. -/
  queueTime : String
  maxJobs : Nat
  maxDifficulty : α
  /-- The least time a job should take, as it was written. -/
  minTime : String
  costs : CostModel α
  /-- Whom to mine for, as it was written. -/
  minerAddress : Option String
  /-- How many nonces are tried for each extra nonce. -/
  nonces : Nat
deriving DecidableEq

namespace Config

variable {α : Type} [Scalar α]

/-- What holds where nothing is set. -/
def usual : Config α :=
  ⟨.info, .compact, "10m", 64, Scalar.ofNat 1000000, "30s", ⟨Scalar.zero, Scalar.one⟩, none,
    HashMeter.nonceSpace⟩

instance : Inhabited (Config α) := ⟨usual⟩

/-- The command line's setting, or the file's where it is the usual one. -/
def pick
    {β : Type}
    (same : β → β → Bool)
    (standard given file : β) :
    β :=
  if same given standard then file else given

/-- What the command line sets, and what a file sets where the command line
leaves the usual settings. -/
def merge
    (given file : Config α) :
    Config α :=
  let standard : Config α := usual
  ⟨pick (· == ·) standard.logLevel given.logLevel file.logLevel,
    pick (· == ·) standard.logFormat given.logFormat file.logFormat,
    pick (· == ·) standard.queueTime given.queueTime file.queueTime,
    pick (· == ·) standard.maxJobs given.maxJobs file.maxJobs,
    pick Scalar.same standard.maxDifficulty given.maxDifficulty file.maxDifficulty,
    pick (· == ·) standard.minTime given.minTime file.minTime,
    ⟨pick Scalar.same standard.costs.perDifficulty given.costs.perDifficulty
        file.costs.perDifficulty,
      pick Scalar.same standard.costs.constant given.costs.constant file.costs.constant⟩,
    pick (· == ·) standard.minerAddress given.minerAddress file.minerAddress,
    pick (· == ·) standard.nonces given.nonces file.nonces⟩

/-- Read the duration of a setting. -/
def duration
    (setting text : String) :
    Except Failure Duration :=
  (DurationText.read text).mapError (.durationSetting setting text)

/-- The settings of a pool. -/
def settings
    (config : Config α) :
    Except Failure (PoolSettings α) := do
  let queueTime ← duration "contract_queue_time" config.queueTime
  let minTime ← duration "min_solve_time" config.minTime
  return ⟨queueTime, ⟨config.maxJobs, config.maxDifficulty, minTime⟩, config.costs⟩

/-- Remove every `0x` at the start of a text. -/
def withoutMarks : List Char → List Char
  | '0' :: 'x' :: rest => withoutMarks rest
  | other => other

/-- The address to mine for, if one is set. -/
def miner
    (config : Config α) :
    Except Failure (Option Address) :=
  match config.minerAddress with
  | none => .ok none
  | some text =>
      ((Address.ofHex (String.ofList (withoutMarks text.toList))).map some).mapError .minerAddress

/-- Bounds must leave room, and there must be nonces to try. -/
def checkBounds
    (config : Config α) :
    Except Failure Unit := do
  if config.maxJobs = 0 then throw .noRoom
  if ¬ Scalar.zero < config.maxDifficulty then throw .difficultyBound
  config.costs.check
  if config.nonces = 0 ∨ HashMeter.nonceSpace < config.nonces then throw .nonceCount

end Config

end WorkMarket
