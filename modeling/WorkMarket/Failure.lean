import WorkMarket.Bytes.Hex
import WorkMarket.Text.DurationText

/-!
# What can fail

Malformed scripts and candidates are not failures: they read as invalid
values.  A `Failure` names the cause of everything else that is refused.
`Failure.area` sorts causes coarsely, and `Failure.message` words them.
-/

namespace WorkMarket

/-- Why a file cannot be read. -/
inductive FileFault where
  /-- There is no such file. -/
  | missing
  /-- The file must not be read. -/
  | denied
  /-- It is a directory. -/
  | directory
  /-- It holds something else than text. -/
  | notText
deriving DecidableEq

/-- The wording of a file's fault. -/
def FileFault.message : FileFault → String
  | .missing => "No such file or directory (os error 2)"
  | .denied => "Permission denied (os error 13)"
  | .directory => "Is a directory (os error 21)"
  | .notText => "stream did not contain valid UTF-8"

/-- Why something was refused. -/
inductive Failure where
  /-- The text of a digest is not hexadecimal. -/
  | digestHex (fault : Hex.Fault)
  /-- A digest of the wrong size. -/
  | digestLength (actual : Nat)
  /-- The text of an address is not hexadecimal. -/
  | addressHex (fault : Hex.Fault)
  /-- An address of the wrong size. -/
  | addressLength (actual : Nat)
  /-- The text of a signature is not hexadecimal. -/
  | signatureHex (fault : Hex.Fault)
  /-- The text of a public key is not hexadecimal. -/
  | publicKeyHex (fault : Hex.Fault)
  /-- A hexadecimal text of another length than expected. -/
  | hexLength (expected actual : Nat)
  /-- A hexadecimal text with half a byte too many. -/
  | hexOdd
  /-- A hexadecimal text with other characters in it. -/
  | hexDigits
  /-- A target's text does not have eight digits. -/
  | targetLength (actual : Nat)
  /-- A target's text has other characters than digits. -/
  | targetDigits
  /-- An invalid target has no difficulty. -/
  | undefinedDifficulty (compact : UInt32)
  /-- Only valid contract jobs can be offered. -/
  | offerKind
  /-- A contract cannot be offered without the key to redeem it. -/
  | offerSecret
  /-- No such job is in progress. -/
  | unknownJob (id : FixedBytes 32)
  /-- A solution whose hash does not meet the job's target. -/
  | unsolved (id : FixedBytes 32)
  /-- There is no rule yet for a new goal. -/
  | goalUnsettled
  /-- A setting that should be a duration. -/
  | durationSetting (setting text : String) (fault : DurationText.Fault)
  /-- No job could ever be worked on. -/
  | noRoom
  /-- The bound on difficulty is not a positive number. -/
  | difficultyBound
  /-- A cost is negative or no number. -/
  | negativeCost
  /-- Work would cost nothing. -/
  | costFree
  /-- The number of nonces to try is zero or more than there are. -/
  | nonceCount
  /-- The miner's address is none. -/
  | minerAddress (cause : Failure)
  /-- A file that cannot be read. -/
  | file (fault : FileFault)
  /-- A JSON text that is malformed or describes something else. -/
  | json
  /-- A YAML text that is malformed or describes something else. -/
  | yaml
deriving DecidableEq

namespace Failure

/-- The coarse kind of a failure. -/
def area : Failure → String
  | .digestHex _ | .digestLength _ | .addressHex _ | .addressLength _ | .signatureHex _
  | .publicKeyHex _ | .hexLength _ _ | .hexOdd | .hexDigits => "script"
  | .targetLength _ | .targetDigits | .undefinedDifficulty _ => "target"
  | .offerKind | .offerSecret => "job"
  | .unknownJob _ => "unknown_job"
  | .unsolved _ => "invalid_solution"
  | .goalUnsettled => "not_implemented"
  | .durationSetting _ _ _ | .noRoom | .difficultyBound | .negativeCost | .costFree
  | .nonceCount | .minerAddress _ => "config"
  | .file _ => "io"
  | .json => "json"
  | .yaml => "yaml"

/-- The wording for a text that is malformed or describes something else. -/
def mismatch : String :=
  "the text does not describe the expected value"

/-- The wording of a failure. -/
def message : Failure → String
  | .digestHex fault => "Script error: Invalid digest hex: " ++ fault.message
  | .digestLength actual =>
      "Script error: Invalid digest length: expected 32 bytes, got " ++ toString actual
  | .addressHex fault => "Script error: Invalid address hex: " ++ fault.message
  | .addressLength actual =>
      "Script error: Invalid address length: expected 20 bytes, got " ++ toString actual
  | .signatureHex fault => "Script error: Invalid signature hex: " ++ fault.message
  | .publicKeyHex fault => "Script error: Invalid public key hex: " ++ fault.message
  | .hexLength expected actual =>
      "Script error: Expected " ++ toString expected ++ " hex characters, got " ++
        toString actual
  | .hexOdd => "Script error: Hex string has an odd number of characters"
  | .hexDigits => "Script error: String contains non-hexadecimal characters"
  | .targetLength actual =>
      "Invalid target: Invalid target hex length: expected 8 chars, got " ++ toString actual
  | .targetDigits => "Invalid target: Invalid hex in target: invalid digit found in string"
  | .undefinedDifficulty compact =>
      "Invalid target: difficulty of invalid target " ++
        String.ofList (Text.hexPadded 8 compact.toNat) ++ " is undefined"
  | .offerKind => "Job error: only valid contract jobs can be offered"
  | .offerSecret => "Job error: contract offer needs a secret"
  | .unknownJob id => "Unknown job: " ++ Hex.encode id.toList
  | .unsolved id =>
      "Invalid solution for job " ++ Hex.encode id.toList ++ ": hash does not meet target"
  | .goalUnsettled => "Not implemented: goal reassessment"
  | .durationSetting setting text fault =>
      "Configuration error: Invalid " ++ setting ++ " '" ++ text ++ "': " ++ fault.message
  | .noRoom => "Configuration error: max_in_progress must be greater than 0"
  | .difficultyBound => "Configuration error: max_in_progress_difficulty must be positive"
  | .negativeCost => "Configuration error: Costs must not be negative"
  | .costFree =>
      "Configuration error: " ++
        "At least one of cost_per_difficulty and constant_cost must be positive"
  | .nonceCount => "Configuration error: solve_nonces must be between 1 and 4294967296"
  | .minerAddress cause => "Configuration error: Invalid miner address: " ++ cause.message
  | .file fault => "I/O error: " ++ fault.message
  | .json => "JSON error: " ++ mismatch
  | .yaml => "YAML error: " ++ mismatch

/-- What a failure comes from, where that is told apart from it. -/
def origin? : Failure → Option String
  | .file fault => some fault.message
  | .json | .yaml => some mismatch
  | _ => none

end Failure

end WorkMarket
