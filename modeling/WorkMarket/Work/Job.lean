import WorkMarket.Pow.Candidate
import WorkMarket.Script.Locking
import WorkMarket.Script.Unlocking

/-!
# Jobs

A job is the puzzle that a locking script asks one miner to solve.  The
puzzle's header is the tag and then the miner's address, its body is the user
nonce and then the free data, so that the script can be recovered from the
job.  `workProof` pairs a script with the script that redeems it.
-/

namespace WorkMarket

/-- The puzzle one miner solves for a script. -/
structure Job where
  /-- The kind of the script. -/
  kind : ScriptKind
  puzzle : Puzzle
deriving DecidableEq

namespace Job

/-- The job that stands for none. -/
def absent : Job :=
  ⟨.invalid, Puzzle.absent⟩

instance : Inhabited Job := ⟨absent⟩

/-- The puzzle of a script for a miner. -/
def puzzleOf
    (script : LockingScript)
    (address : Address) :
    Puzzle :=
  ⟨script.category, script.content, script.target, MerklePath.empty,
    script.tag ++ address.toList, LittleEndian.ofUInt32 script.userNonce ++ script.data⟩

/-- The job of a script for a miner.  A contract gives a job only to the miner
it is bound to. -/
def ofScript
    (script : LockingScript)
    (address : Address) :
    Job :=
  match script.kind with
  | .invalid => absent
  | .bounty => ⟨.bounty, puzzleOf script address⟩
  | .contract =>
      if script.minerAddress = address then ⟨.contract, puzzleOf script address⟩ else absent

/-- Whether a header holds an address and a body a user nonce. -/
def isFilled
    (puzzle : Puzzle) :
    Bool :=
  20 ≤ puzzle.header.length && 4 ≤ puzzle.body.length

/-- Whether a job can be worked on. -/
def isValid
    (job : Job) :
    Bool :=
  job.kind.isValid && job.puzzle.isValid && isFilled job.puzzle

/-- The miner's address at the end of the header; absent if the header is too
short for one. -/
def minerAddress
    (job : Job) :
    Address :=
  let header := job.puzzle.header
  (FixedBytes.ofList? 20 (header.drop (header.length - 20))).getD Address.absent

/-- The script that a job comes from. -/
def lockingScript
    (job : Job) :
    LockingScript :=
  let puzzle := job.puzzle
  if isFilled puzzle then
    let tag := puzzle.header.take (puzzle.header.length - 20)
    let userNonce := LittleEndian.toUInt32 (puzzle.body.take 4)
    let data := puzzle.body.drop 4
    match job.kind with
    | .invalid => LockingScript.absent
    | .bounty =>
        .bounty puzzle.category puzzle.content puzzle.target tag userNonce data
    | .contract =>
        .contract puzzle.category puzzle.content puzzle.target tag userNonce data
          job.minerAddress
  else LockingScript.absent

/-- The name of a job, which is the name of its script. -/
def id
    (job : Job) :
    Digest :=
  job.lockingScript.id

end Job

/-- The proof that a redeeming script carries for a script.  There is none if
either is no work script or they are of different kinds. -/
def workProof
    (output : LockingScript)
    (input : UnlockingScript) :
    Option WorkProof :=
  if output.isValid ∧ input.isValid ∧ output.kind = input.kind then
    let address :=
      if output.kind = .bounty then input.minerAddress else output.minerAddress
    let job := Job.ofScript output address
    if job.isValid then some ⟨job.puzzle, input.solution⟩ else none
  else none

end WorkMarket
