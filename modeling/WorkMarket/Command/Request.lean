import WorkMarket.Command.Config

/-!
# Requests

A request is everything that a command line can ask for.  Of several things to
do only the first in the order of `Request.task` is done.
-/

namespace WorkMarket

/-- What a command line asks for. -/
structure Request where
  /-- Tell what the program is. -/
  info : Bool
  /-- Show the configuration. -/
  printConfig : Bool
  /-- The file that holds more of the configuration. -/
  configFile : Option String
  config : Config Float
  /-- A locking script to decode. -/
  decodeOutput : Option String
  /-- A redeeming script to decode. -/
  decodeInput : Option String
  /-- A target whose difficulty is shown. -/
  difficulty : Option String
  /-- A locking script to solve. -/
  solve : Option String

/-- The one thing to do. -/
inductive Task where
  | info
  | printConfig
  | decodeOutput (script : String)
  | decodeInput (script : String)
  | difficulty (target : String)
  | solve (script : String)
  /-- Nothing was asked for: show a pool that has seen nothing. -/
  | status
deriving DecidableEq

namespace Request

/-- Nothing asked for. -/
def empty : Request :=
  ⟨false, false, none, Config.usual, none, none, none, none⟩

instance : Inhabited Request := ⟨empty⟩

/-- The first thing asked for. -/
def task
    (request : Request) :
    Task :=
  if request.info then .info
  else if request.printConfig then .printConfig
  else
    (request.decodeOutput.map Task.decodeOutput <|>
      request.decodeInput.map Task.decodeInput <|>
      request.difficulty.map Task.difficulty <|>
      request.solve.map Task.solve).getD .status

/-- Use what a file sets, too. -/
def withFile
    (request : Request)
    (file : Config Float) :
    Request :=
  { request with config := request.config.merge file }

/-- What is wrong with a request: first its durations, then its bounds, then
the target and last the miner's address. -/
def check
    (request : Request) :
    Except Failure Unit := do
  let _ ← request.config.settings
  request.config.checkBounds
  match request.difficulty with
  | some target => let _ ← Target.ofHex target
  | none => pure ()
  let _ ← request.config.miner

end Request

end WorkMarket
