import WorkMarket.Script.Locking

/-!
# Outputs that offer work

An output pays an amount to a locking script.  Every output with the same
script carries the same name, by which it is queued.
-/

namespace WorkMarket

/-- An unspent output with a work script. -/
structure Output where
  outpoint : Outpoint
  script : LockingScript
  /-- The amount that is paid. -/
  value : UInt64
  /-- The name under which the output is queued. -/
  id : Digest
deriving DecidableEq, Inhabited

namespace Output

/-- An output under the name of its script. -/
def ofScript
    (outpoint : Outpoint)
    (script : LockingScript)
    (value : UInt64) :
    Output :=
  ⟨outpoint, script, value, script.id⟩

/-- Outpoint, script and name must all be valid. -/
def isValid
    (output : Output) :
    Bool :=
  output.outpoint.isValid && output.script.isValid && output.id.isValid

end Output

end WorkMarket
