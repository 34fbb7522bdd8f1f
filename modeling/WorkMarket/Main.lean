import Std.Time.DateTime.Timestamp
import WorkMarket.Command.Run

/-!
# The program

Reads the arguments and the file they name, runs the request and prints what
comes of it.
-/

namespace WorkMarket
namespace Program

/-- The contents of a file. -/
def contents
    (path : String) :
    IO (Except FileFault String) := do
  try
    let bytes ← IO.FS.readBinFile path
    match String.fromUTF8? bytes with
    | some text => return .ok text
    | none => return .error .notText
  catch
    | .permissionDenied .. => return .error .denied
    | .inappropriateType .. => return .error .directory
    | _ => return .error .missing

/-- Print an outcome and answer with its code. -/
def conclude
    (outcome : Outcome) :
    IO UInt32 := do
  IO.print outcome.output
  IO.eprint outcome.problems
  return outcome.exitCode.toUInt32

/-- The time that a candidate made now carries. -/
def timestamp : IO UInt32 := do
  let now ← Std.Time.Timestamp.now
  return UInt32.ofNat (min now.toSecondsSinceUnixEpoch.val.toNat (UInt32.size - 1))

/-- Try one extra nonce after the other until a solution is found. -/
partial def mine
    (job : Job)
    (nonces : Nat)
    (extraNonce₁ : UInt32)
    (extraNonce₂ : UInt64)
    (meter : HashMeter) :
    IO (Solution × HashMeter) := do
  match Run.pass job nonces (← timestamp) extraNonce₁ extraNonce₂ meter with
  | (some solution, meter) => return (solution, meter)
  | (none, meter) => mine job nonces extraNonce₁ (extraNonce₂ + 1) meter

/-- Carry a run to its end. -/
def carryOut : Run → IO UInt32
  | .finished outcome => conclude outcome
  | .solving job nonces => do
      let started ← IO.monoMsNow
      let extraNonce₁ ← IO.rand 0 (UInt32.size - 1)
      let (solution, meter) ← mine job nonces (UInt32.ofNat extraNonce₁) 0 HashMeter.fresh
      let stopped ← IO.monoMsNow
      conclude (Report.solution job solution meter.count ((stopped - started) / 1000))

end Program
end WorkMarket

/-- Answer one command line. -/
def main
    (arguments : List String) :
    IO UInt32 := do
  match WorkMarket.Request.ofArguments arguments with
  | .error refusal => WorkMarket.Program.conclude (WorkMarket.Report.refusal refusal)
  | .ok request =>
      let contents ←
        match request.configFile with
        | some path => WorkMarket.Program.contents path
        | none => pure (.error .missing)
      WorkMarket.Program.carryOut (WorkMarket.Run.begin request contents)
