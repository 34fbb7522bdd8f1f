import WorkMarket.Command.Request
import WorkMarket.Text.Decimal.Reader

/-!
# Command lines

A command line is a list of arguments that name options.  The value of an
option is attached to it or is the next argument; such a value is looked at
only when another option is accepted or the command line ends.  A `Refusal`
says why a command line is not understood, or that it asks for nothing but
help.
-/

namespace WorkMarket

/-- Why a command line leads to no request. -/
inductive Refusal where
  | displayHelp
  | displayVersion
  | unknownArgument
  /-- An option that was given before. -/
  | argumentConflict
  /-- A value that is missing or not among the choices. -/
  | invalidValue
  /-- A value for an option that takes none. -/
  | tooManyValues
  /-- A value that is no number in range. -/
  | valueValidation
  /-- An option that another one needs. -/
  | missingRequiredArgument
deriving DecidableEq, Repr

namespace Refusal

/-- What is wrong with a command line. -/
def reason : Refusal → String
  | .displayHelp => "help is asked for"
  | .displayVersion => "the version is asked for"
  | .unknownArgument => "unexpected argument"
  | .argumentConflict => "the argument cannot be used multiple times"
  | .invalidValue => "invalid or missing value"
  | .tooManyValues => "unexpected value"
  | .valueValidation => "invalid value"
  | .missingRequiredArgument => "a required argument is missing"

end Refusal

/-- What an option does to a request. -/
inductive OptionEffect where
  | refuse (refusal : Refusal)
  | mark (set : Request → Request)
  | take (set : String → Request → Except Refusal Request)

/-- An option of the command line. -/
structure CommandOption where
  name : String
  /-- The letter that also names it. -/
  letter : Option Char
  effect : OptionEffect

namespace CommandOption

/-- An option whose value is kept as it is. -/
def text
    (name : String)
    (set : String → Request → Request) :
    CommandOption :=
  ⟨name, none, .take fun value request => .ok (set value request)⟩

/-- An option whose value is a word of a fixed choice. -/
def choice
    {α : Type}
    (name : String)
    (letter : Option Char)
    (choices : List α)
    (textOf : α → String)
    (set : α → Config Float → Config Float) :
    CommandOption :=
  ⟨name, letter, .take fun value request =>
    match choices.find? fun choice => textOf choice = value with
    | some choice => .ok { request with config := set choice request.config }
    | none => .error .invalidValue⟩

/-- An option whose value is read as a number. -/
def number
    {α : Type}
    (name : String)
    (read : List Char → Option α)
    (set : α → Config Float → Config Float) :
    CommandOption :=
  ⟨name, none, .take fun value request =>
    match read value.toList with
    | some value => .ok { request with config := set value request.config }
    | none => .error .valueValidation⟩

/-- A whole number of sixty-four bits, with or without a plus. -/
def natural?
    (characters : List Char) :
    Option Nat :=
  let digits := Text.stripLead ['+'] characters
  if digits.isEmpty then none
  else (Text.numberOf? Text.decimalValue? 10 digits).filter fun value => value < UInt64.size

/-- The options that say what to do. -/
def taskOptions : List CommandOption :=
  [⟨"help", some 'h', .refuse .displayHelp⟩,
    ⟨"version", some 'V', .refuse .displayVersion⟩,
    ⟨"info", none, .mark fun request => { request with info := true }⟩,
    ⟨"print-config", none, .mark fun request => { request with printConfig := true }⟩,
    ⟨"config-file", none, .take fun path request =>
      if path.isEmpty then .error .invalidValue
      else .ok { request with configFile := some path }⟩,
    text "decode-output" fun script request => { request with decodeOutput := some script },
    text "decode-input" fun script request => { request with decodeInput := some script },
    text "difficulty" fun target request => { request with difficulty := some target },
    text "solve" fun script request => { request with solve := some script }]

/-- The options that set the configuration. -/
def configOptions : List CommandOption :=
  [choice "log-level" (some 'l') LogLevel.all LogLevel.text
      fun level config => { config with logLevel := level },
    choice "log-format" none LogFormat.all LogFormat.text
      fun layout config => { config with logFormat := layout },
    text "contract-queue-time" fun time request =>
      { request with config := { request.config with queueTime := time } },
    number "max-in-progress" natural? fun count config => { config with maxJobs := count },
    number "max-in-progress-difficulty" Decimal.readFloat?
      fun bound config => { config with maxDifficulty := bound },
    text "min-solve-time" fun time request =>
      { request with config := { request.config with minTime := time } },
    number "cost-per-difficulty" Decimal.readFloat? fun cost config =>
      { config with costs := { config.costs with perDifficulty := cost } },
    number "constant-cost" Decimal.readFloat? fun cost config =>
      { config with costs := { config.costs with constant := cost } },
    text "miner-address" fun address request =>
      { request with config := { request.config with minerAddress := some address } },
    number "solve-nonces" natural? fun count config => { config with nonces := count }]

/-- Every option. -/
def all : List CommandOption :=
  taskOptions ++ configOptions

/-- Whether an option takes a value. -/
def takesValue
    (option : CommandOption) :
    Bool :=
  match option.effect with
  | .take _ => true
  | _ => false

end CommandOption

/-- How far a command line has been read. -/
structure CommandLine where
  request : Request
  /-- The names of the options accepted so far. -/
  seen : List String
  /-- An option that has not been looked at, and its value, if that came. -/
  pending : Option (CommandOption × Option String)

namespace CommandLine

/-- Nothing read yet. -/
def start : CommandLine :=
  ⟨Request.empty, [], none⟩

/-- Let an option take effect, unless it did before. -/
def apply
    (line : CommandLine)
    (option : CommandOption)
    (value : Option String) :
    Except Refusal CommandLine := do
  if option.takesValue && value.isNone then throw .invalidValue
  if line.seen.contains option.name then throw .argumentConflict
  let request ←
    match option.effect, value with
    | .refuse refusal, _ => throw refusal
    | .mark set, _ => pure (set line.request)
    | .take set, some value => set value line.request
    | .take _, none => throw .invalidValue
  return ⟨request, option.name :: line.seen, none⟩

/-- Look at the option that is pending. -/
def settle
    (line : CommandLine) :
    Except Refusal CommandLine :=
  match line.pending with
  | some (option, value) => { line with pending := none }.apply option value
  | none => .ok line

/-- Accept an option with the value attached to it, if there is one. -/
def accept
    (line : CommandLine)
    (option : CommandOption)
    (attached : Option String) :
    Except Refusal CommandLine := do
  if option.takesValue then
    let line ← line.settle
    match attached with
    | some value => line.apply option (some value)
    | none => return { line with pending := some (option, none) }
  else if attached.isSome then throw .tooManyValues
  else
    let line ← line.settle
    line.apply option none

/-- Read an argument that names an option by a word. -/
def readNamed
    (line : CommandLine)
    (named : List Char) :
    Except Refusal CommandLine :=
  let name := String.ofList (named.takeWhile (· ≠ '='))
  let attached :=
    match named.dropWhile (· ≠ '=') with
    | [] => none
    | _ :: value => some (String.ofList value)
  match CommandOption.all.find? (·.name = name) with
  | some option => line.accept option attached
  | none => .error .unknownArgument

/-- Read an argument that names an option by a letter. -/
def readLetter
    (line : CommandLine)
    (letter : Char)
    (behind : List Char) :
    Except Refusal CommandLine :=
  match CommandOption.all.find? (·.letter = some letter) with
  | some option =>
      if option.takesValue && !behind.isEmpty then
        line.accept option (some (String.ofList (Text.stripLead ['='] behind)))
      else line.accept option none
  | none => .error .unknownArgument

/-- Read an argument that names no option, which must be the value of the last
one. -/
def readValue
    (line : CommandLine)
    (value : String) :
    Except Refusal CommandLine :=
  match line.pending with
  | some (option, none) => .ok { line with pending := some (option, some value) }
  | _ => .error .unknownArgument

/-- Read arguments.  Behind `--` there must be none. -/
def readAll : List String → CommandLine → Except Refusal CommandLine
  | [], line => line.settle
  | "--" :: rest, line => if rest.isEmpty then line.settle else .error .unknownArgument
  | argument :: rest, line =>
      let next :=
        match argument.toList with
        | '-' :: '-' :: named => line.readNamed named
        | '-' :: letter :: behind => line.readLetter letter behind
        | _ => line.readValue argument
      match next with
      | .ok line => readAll rest line
      | .error refusal => .error refusal

end CommandLine

/-- The request of a command line.  What is to be solved needs a miner. -/
def Request.ofArguments
    (arguments : List String) :
    Except Refusal Request := do
  let line ← CommandLine.start.readAll arguments
  if line.request.solve.isSome && line.request.config.minerAddress.isNone then
    throw .missingRequiredArgument
  return line.request

end WorkMarket
