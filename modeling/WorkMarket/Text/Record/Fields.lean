import WorkMarket.Number.Binary64
import WorkMarket.Text.Json.Value

/-!
# Records in texts

A record is read from parts that come by name or, in place of names, in the
order in which the fields are declared.  By name, unknown parts are passed
over and a known one must not come twice.  The same rules hold for every
format, which only has to say how it shows single values.
-/

namespace WorkMarket

/-- The parts of a record. -/
structure Fields (ν : Type) where
  /-- Whether the parts came in order and not by name. -/
  inOrder : Bool
  parts : List (String × ν)

namespace Fields

/-- Parts that came by name. -/
def ofMembers?
    {ν : Type}
    (names : List String)
    (members : List (String × ν)) :
    Option (Fields ν) :=
  let known := members.filter fun member => names.contains member.1
  if (known.map Prod.fst).Nodup then some ⟨false, known⟩ else none

/-- Parts that came in order; the last ones may be missing. -/
def ofElements?
    {ν : Type}
    (names : List String)
    (elements : List ν) :
    Option (Fields ν) :=
  if elements.length ≤ names.length then some ⟨true, names.zip elements⟩ else none

/-- The part of a field. -/
def part?
    {ν : Type}
    (fields : Fields ν)
    (name : String) :
    Option ν :=
  fields.parts.lookup name

/-- Read a field that must be there. -/
def required
    {ν α : Type}
    (fields : Fields ν)
    (name : String)
    (read : ν → Option α) :
    Option α :=
  (fields.part? name).bind read

/-- Read a field that has a value of its own where it is missing. -/
def defaulted
    {ν α : Type}
    (fields : Fields ν)
    (name : String)
    (usual : α)
    (read : ν → Option α) :
    Option α :=
  match fields.part? name with
  | some part => read part
  | none => some usual

/-- Read a field that may be empty.  By name it may also be missing. -/
def optional
    {ν α : Type}
    (fields : Fields ν)
    (name : String)
    (content? : ν → Option (Option ν))
    (read : ν → Option α) :
    Option (Option α) :=
  match fields.part? name with
  | some part => do
      match ← content? part with
      | some content => (read content).map some
      | none => some none
  | none => if fields.inOrder then none else some none

end Fields

/-- How a format shows single values. -/
structure Format (ν : Type) where
  fields? : List String → ν → Option (Fields ν)
  text? : ν → Option String
  /-- A whole number from zero up to sixty-four bits. -/
  natural? : ν → Option Nat
  real? : ν → Option Float
  /-- One word of a fixed choice. -/
  word? : ν → Option String
  /-- A value, if it is not the empty one. -/
  content? : ν → Option (Option ν)

namespace Json

/-- The parts of a record. -/
def fields?
    (names : List String) :
    Json → Option (Fields Json)
  | object members => Fields.ofMembers? names members
  | array elements => Fields.ofElements? names elements
  | _ => none

/-- A text. -/
def text? : Json → Option String
  | string value => some value
  | _ => none

/-- A whole number in an interval. -/
def integerIn?
    (least most : Int) :
    Json → Option Int
  | integer value => if least ≤ value ∧ value ≤ most then some value else none
  | _ => none

/-- A whole number of so many bits. -/
def natural?
    (bits : Nat)
    (value : Json) :
    Option Nat :=
  (value.integerIn? 0 (Nat.pow 2 bits - 1 : Nat)).map Int.toNat

/-- A finite number. -/
def real? : Json → Option Float
  | integer value => some (Binary64.ofInt value)
  | real value => if value.isFinite then some value else none
  | _ => none

/-- A value, if it is not the empty one. -/
def content? : Json → Option (Option Json)
  | null => some none
  | value => some (some value)

/-- One word of a fixed choice, alone or as the name of nothing. -/
def word? : Json → Option String
  | string value => some value
  | object [(name, null)] => some name
  | _ => none

/-- A word that stands for one of several values. -/
def choice?
    {α : Type}
    (choices : List α)
    (textOf : α → String)
    (value : Json) :
    Option α :=
  value.word?.bind fun word => choices.find? fun choice => textOf choice = word

/-- A list of values. -/
def list?
    {α : Type}
    (read : Json → Option α) :
    Json → Option (List α)
  | array elements => elements.mapM read
  | _ => none

/-- A value or the empty value. -/
def ofOption
    {α : Type}
    (write : α → Json)
    (value : Option α) :
    Json :=
  (value.map write).getD null

/-- JSON as a format of records. -/
def format : Format Json where
  fields? := fields?
  text? := text?
  natural? := natural? 64
  real? := real?
  word? := word?
  content? := content?

end Json

end WorkMarket
