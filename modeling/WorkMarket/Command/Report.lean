import WorkMarket.Command.Arguments
import WorkMarket.Command.Outcome
import WorkMarket.Text.HexInput
import WorkMarket.Text.Record.Config

/-!
# Reports

Everything that the program tells: what it is, how it is configured, what a
script or a target means, and the state of a pool.
-/

namespace WorkMarket
namespace Report

/-- The name of the program. -/
def programName : String :=
  "boost-pow"

/-- The version of the program. -/
def programVersion : String :=
  "0.5.0"

/-- What the program is for. -/
def programPurpose : String :=
  "Boost proof-of-work scripts, compact targets and the job marketplace backend"

/-- What the program is. -/
def info : Outcome :=
  .report [programName ++ " v" ++ programVersion, programPurpose]

/-- The usage of the options. -/
def usage : List String :=
  (programPurpose :: "" :: ("Usage: " ++ programName ++ " [OPTIONS]") :: "" :: "Options:" ::
    CommandOption.all.map fun option =>
      "      --" ++ option.name ++ if option.takesValue then " <VALUE>" else "")

/-- What a command line leads to that asks for no work. -/
def refusal : Refusal → Outcome
  | .displayHelp => .report usage
  | .displayVersion => .report [programName ++ " " ++ programVersion]
  | other => ⟨"", "error: " ++ other.reason ++ "\n", 2⟩

/-- The configuration, with an empty line behind it. -/
def config
    (config : Config Float) :
    Outcome :=
  .report [config.toYaml]

/-- A locking script, its name and its difficulty.  What comes before an
undefined difficulty is told all the same. -/
def lockingScript
    (text : String) :
    Outcome :=
  match HexInput.read text with
  | .error failure => .complain [] (.failed failure)
  | .ok bytes =>
      let script := LockingScript.read bytes
      let lines := [script.describe, "id:         " ++ Digest.toHex script.id]
      if !script.isValid then .complain [] .notLockingScript
      else
        match script.difficulty with
        | .error failure => .complain lines (.failed failure)
        | .ok difficulty =>
            .report (lines ++
              ["difficulty: " ++ Decimal.Style.plain.write (difficulty.view Float),
                script.toJson.pretty])

/-- A redeeming script and the solution it carries. -/
def unlockingScript
    (text : String) :
    Outcome :=
  match HexInput.read text with
  | .error failure => .complain [] (.failed failure)
  | .ok bytes =>
      let script := UnlockingScript.read bytes
      if script.isValid then .report [script.describe, script.solution.toJson.pretty]
      else .complain [] .notUnlockingScript

/-- A target, the magnitude it denotes and its difficulty. -/
def target
    (text : String) :
    Outcome :=
  let lines : Except Failure (List String) := do
    let target ← Target.ofHex text
    let difficulty ← target.difficulty
    return ["target:     " ++ target.toHex,
      "expanded:   " ++ String.ofList (Text.hexPadded 64 target.magnitude),
      "difficulty: " ++ Decimal.Style.plain.write (difficulty.view Float) ++ " (" ++
        difficulty.describe ++ ")"]
  .ofExcept (lines.mapError .failed)

/-- A pool with the configured settings that has seen nothing. -/
def pool
    (config : Config Float) :
    Outcome :=
  match config.settings with
  | .error failure => .complain [] (.failed failure)
  | .ok settings =>
      let pool : Pool Float := Pool.fresh settings (AddressBook.ofSeed (FixedBytes.zero 32))
      .report [pool.status.toJson.pretty]

/-- A solution that was found, after so many hashes and seconds. -/
def solution
    (job : Job)
    (solution : Solution)
    (hashes seconds : Nat) :
    Outcome :=
  let proof : WorkProof := ⟨job.puzzle, solution⟩
  .report [solution.toJson.pretty,
    "hash:    " ++ Digest.toHex proof.candidate.hash,
    "valid:   " ++ toString proof.isValid,
    "hashes:  " ++ toString hashes ++ " in " ++ DurationText.writeRough seconds]

end Report
end WorkMarket
