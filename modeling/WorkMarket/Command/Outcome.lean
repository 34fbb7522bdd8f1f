import WorkMarket.Chain.Identity
import WorkMarket.Failure

/-!
# Outcomes

An outcome is what a run of the program writes and the code it ends with.  What
was written before a complaint stays.  A `Complaint` is worded together with
what it comes from, the cause of each cause behind it.
-/

namespace WorkMarket

/-- Why a request was not fulfilled. -/
inductive Complaint where
  /-- The configuration is missing something or wrong. -/
  | configuration (cause : Failure)
  /-- Something else failed. -/
  | failed (cause : Failure)
  | notLockingScript
  | notUnlockingScript
  /-- The script is bound to another miner. -/
  | notForMiner (address : Address)
  /-- Nobody to mine for. -/
  | noMiner
deriving DecidableEq

namespace Complaint

/-- Every line break and a margin behind it. -/
def indented
    (width : Nat)
    (text : String) :
    String :=
  String.ofList (text.toList.flatMap fun next =>
    if next = '\n' then '\n' :: List.replicate width ' ' else [next])

/-- The causes of a complaint, numbered if there are several. -/
def causes
    (cause : Failure) :
    String :=
  match cause.origin? with
  | none => "    " ++ indented 4 cause.message
  | some origin => "    0: " ++ indented 7 cause.message ++ "\n    1: " ++ indented 7 origin

/-- The wording of a complaint. -/
def text : Complaint → String
  | .configuration cause => "Failed to load configuration\n\nCaused by:\n" ++ causes cause
  | .failed cause => cause.message
  | .notLockingScript => "not a Boost output script"
  | .notUnlockingScript => "not a Boost input script"
  | .notForMiner address => "script cannot be mined by " ++ address.toHex
  | .noMiner => "--miner-address is required"

end Complaint

/-- What a run writes and ends with. -/
structure Outcome where
  output : String
  problems : String
  exitCode : UInt8
deriving DecidableEq

namespace Outcome

/-- Lines of output and nothing wrong. -/
def report
    (lines : List String) :
    Outcome :=
  ⟨String.join (lines.map (· ++ "\n")), "", 0⟩

/-- A complaint, behind lines of output. -/
def complain
    (lines : List String)
    (complaint : Complaint) :
    Outcome :=
  ⟨(report lines).output, "Error: " ++ complaint.text ++ "\n", 1⟩

/-- A report, or the complaint in its place. -/
def ofExcept
    (lines : Except Complaint (List String)) :
    Outcome :=
  match lines with
  | .ok lines => report lines
  | .error complaint => complain [] complaint

end Outcome

end WorkMarket
