import WorkMarket.Text.Record.Fields
import WorkMarket.Text.Yaml.Event
import WorkMarket.Text.Yaml.Value

/-!
# YAML documents

A document is a tree together with the values in it that have numbers.
`Document.ofEvents?` builds the tree from the events that tell it, with a stack
of the collections that are open, and `Document.format` reads records from it.
-/

namespace WorkMarket
namespace Yaml

/-- A collection that is open. -/
structure Frame where
  /-- The place of its first event. -/
  place : Nat
  isMapping : Bool
  /-- The values in it so far, the latest first. -/
  values : List Yaml

namespace Frame

/-- The collection as it stands. -/
def close
    (frame : Frame) :
    Yaml :=
  let values := frame.values.reverse
  if frame.isMapping then .mapping (membersOf values) else .sequence values

end Frame

/-- A document of which some events are told. -/
structure Draft where
  /-- The number of events. -/
  length : Nat
  /-- The numbers of names, the latest first. -/
  numbers : List (String × Nat)
  /-- How many different names there are. -/
  known : Nat
  /-- Where the values with numbers begin, the latest first. -/
  places : List (Nat × Nat)
  /-- The complete values with the places where they begin. -/
  complete : List (Nat × Yaml)
  frames : List Frame
  root : Option Yaml

namespace Draft

/-- Nothing is told. -/
def empty : Draft :=
  ⟨0, [], 0, [], [], [], none⟩

/-- Give a name to the value that begins here.  It stands for a number, which
is that of the different names before it. -/
def named
    (draft : Draft) :
    Option String → Draft
  | none => draft
  | some name =>
      { draft with
        numbers := (name, draft.known) :: draft.numbers
        known := draft.known + if (draft.numbers.lookup name).isSome then 0 else 1
        places := (draft.known, draft.length) :: draft.places }

/-- Whether a value that begins at a place has a number. -/
def isNumbered
    (draft : Draft)
    (place : Nat) :
    Bool :=
  draft.places.any fun entry => entry.2 = place

/-- Put a value that began at a place into the innermost collection. -/
def put
    (draft : Draft)
    (place : Nat)
    (value : Yaml) :
    Draft :=
  let complete :=
    if draft.isNumbered place then (place, value) :: draft.complete else draft.complete
  match draft.frames with
  | [] => { draft with complete := complete, root := some value }
  | frame :: outer =>
      { draft with
        complete := complete
        frames := { frame with values := value :: frame.values } :: outer }

/-- Open a collection. -/
def opened
    (draft : Draft)
    (isMapping : Bool) :
    Draft :=
  { draft with frames := ⟨draft.length, isMapping, []⟩ :: draft.frames }

/-- Close the innermost collection. -/
def closed
    (draft : Draft) :
    Draft :=
  match draft.frames with
  | [] => draft
  | frame :: outer => { draft with frames := outer }.put frame.place frame.close

/-- One more event.  Only a name that was given can be used. -/
def add?
    (draft : Draft)
    (event : Event) :
    Option Draft :=
  let added : Option Draft :=
    match event with
    | .scalar anchor value => some ((draft.named anchor).put draft.length (.scalar value))
    | .alias name =>
        (draft.numbers.lookup name).map fun number => draft.put draft.length (.alias number)
    | .sequenceStart anchor => some ((draft.named anchor).opened false)
    | .mappingStart anchor => some ((draft.named anchor).opened true)
    | .sequenceEnd | .mappingEnd => some draft.closed
  added.map fun added => { added with length := draft.length + 1 }

end Draft

/-- A tree and the values that have numbers, of which the first counts. -/
structure Document where
  root : Yaml
  numbered : List (Nat × Yaml)

namespace Document

/-- The document that is told by events.  Without any it is left out. -/
def ofEvents?
    (events : List Event) :
    Option Document :=
  (events.foldlM Draft.add? Draft.empty).map fun draft =>
    ⟨draft.root.getD absent,
      draft.places.filterMap fun (number, place) =>
        (draft.complete.lookup place).map fun value => (number, value)⟩

/-- What a value is, wherever that is told. -/
def resolve?
    (document : Document) :
    Yaml → Option Yaml
  | .alias number => document.numbered.lookup number
  | value => some value

/-- The scalar that a value is. -/
def scalar?
    (document : Document)
    (value : Yaml) :
    Option Scalar :=
  (document.resolve? value).bind Yaml.scalar?

/-- A member of a mapping whose key is a scalar. -/
def named?
    (document : Document)
    (member : Yaml × Yaml) :
    Option (String × Yaml) :=
  (document.scalar? member.1).map fun key => (key.text, member.2)

/-- The parts of a record.  What is left out has none. -/
def fields?
    (document : Document)
    (names : List String)
    (value : Yaml) :
    Option (Fields Yaml) :=
  match document.resolve? value with
  | some (.mapping members) => (members.mapM document.named?).bind (Fields.ofMembers? names)
  | some (.scalar content) =>
      if content.style = .plain && content.text.isEmpty then some ⟨false, []⟩ else none
  | _ => none

/-- A value, if it is not the empty one. -/
def content?
    (document : Document)
    (value : Yaml) :
    Option (Option Yaml) :=
  match document.resolve? value with
  | some (.scalar content) =>
      content.isNull?.map fun isNull => if isNull then none else some value
  | other => other.map some

/-- A document as a format of records. -/
def format
    (document : Document) :
    Format Yaml where
  fields? := document.fields?
  text? value := (document.scalar? value).map Scalar.text
  natural? value := (document.scalar? value).bind fun content => content.natural? 64
  real? value := (document.scalar? value).bind Scalar.real?
  word? value := (document.scalar? value).bind Scalar.word?
  content? := document.content?

end Document

end Yaml
end WorkMarket
