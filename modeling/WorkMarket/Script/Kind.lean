/-!
# Kinds of work scripts

A bounty may be claimed by any miner, who names an address when redeeming it.
A contract names the miner's address from the start.  Everything else is not
a work script at all.
-/

namespace WorkMarket

/-- What a script asks for. -/
inductive ScriptKind where
  /-- Not a work script. -/
  | invalid
  /-- Open to every miner. -/
  | bounty
  /-- Bound to one miner. -/
  | contract
deriving DecidableEq, Inhabited

namespace ScriptKind

/-- Whether this is a work script. -/
def isValid : ScriptKind → Bool
  | invalid => false
  | bounty | contract => true

/-- The word for a kind. -/
def text : ScriptKind → String
  | invalid => "invalid"
  | bounty => "bounty"
  | contract => "contract"

/-- The kind a word stands for. -/
def ofText? : String → Option ScriptKind
  | "invalid" => some invalid
  | "bounty" => some bounty
  | "contract" => some contract
  | _ => none

end ScriptKind

end WorkMarket
