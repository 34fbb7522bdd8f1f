import WorkMarket.Command.ConfigFile
import WorkMarket.Command.Report

/-!
# Runs

A run answers one request.  All but solving a script is answered at once.  To
solve a script, pass after pass tries the nonces with one extra nonce after
the other until a solution is found.
-/

namespace WorkMarket

/-- How a run goes on. -/
inductive Run where
  /-- There is nothing left to do. -/
  | finished (outcome : Outcome)
  /-- A job is to be solved, with so many nonces a pass. -/
  | solving (job : Job) (nonces : Nat)

namespace Run

/-- The job of a script that is to be solved. -/
def jobFor
    (config : Config Float)
    (text : String) :
    Except Complaint Job := do
  let script := LockingScript.read (← (HexInput.read text).mapError .failed)
  if !script.isValid then throw .notLockingScript
  match ← config.miner.mapError .failed with
  | none => throw .noMiner
  | some address =>
      let job := Job.ofScript script address
      if job.isValid then return job else throw (.notForMiner address)

/-- The run of a request that is free of faults. -/
def ofRequest
    (request : Request) :
    Run :=
  match request.task with
  | .info => .finished Report.info
  | .printConfig => .finished (Report.config request.config)
  | .decodeOutput text => .finished (Report.lockingScript text)
  | .decodeInput text => .finished (Report.unlockingScript text)
  | .difficulty text => .finished (Report.target text)
  | .solve text =>
      match jobFor request.config text with
      | .ok job => .solving job request.config.nonces
      | .error complaint => .finished (.complain [] complaint)
  | .status => .finished (Report.pool request.config)

/-- The run of a request, after the file that it names was read. -/
def begin
    (request : Request)
    (contents : Except FileFault String) :
    Run :=
  let loaded : Except Failure Request := do
    let request ← request.load contents
    request.check
    return request
  match loaded with
  | .ok request => ofRequest request
  | .error failure => .finished (.complain [] (.configuration failure))

/-- Try one extra nonce. -/
def pass
    (job : Job)
    (nonces : Nat)
    (timestamp extraNonce₁ : UInt32)
    (extraNonce₂ : UInt64)
    (meter : HashMeter) :
    Option Solution × HashMeter :=
  meter.search job.puzzle ⟨timestamp, 0, extraNonce₁, extraNonce₂⟩ nonces

/-- Try so many extra nonces, one after the other. -/
def passes
    (job : Job)
    (nonces : Nat)
    (timestamp extraNonce₁ : UInt32) :
    (remaining : Nat) → UInt64 → HashMeter → Option Solution × HashMeter
  | 0, _, meter => (none, meter)
  | remaining + 1, extraNonce₂, meter =>
      match pass job nonces timestamp extraNonce₁ extraNonce₂ meter with
      | (some solution, meter) => (some solution, meter)
      | (none, meter) => passes job nonces timestamp extraNonce₁ remaining (extraNonce₂ + 1) meter

end Run

end WorkMarket
