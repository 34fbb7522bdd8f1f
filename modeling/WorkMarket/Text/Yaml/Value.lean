import WorkMarket.Text.Yaml.Scalar

/-!
# YAML values

A YAML document is a tree of scalars, sequences and mappings, in which a value
may also be told by the number that it got elsewhere in the document.
-/

namespace WorkMarket

/-- A YAML value. -/
inductive Yaml where
  | scalar (value : Yaml.Scalar)
  | sequence (elements : List Yaml)
  | mapping (members : List (Yaml × Yaml))
  /-- The value that has a number. -/
  | alias (number : Nat)
deriving Inhabited

namespace Yaml

/-- What is left out. -/
def absent : Yaml :=
  .scalar Scalar.absent

/-- The scalar that a value is. -/
def scalar? : Yaml → Option Scalar
  | scalar value => some value
  | _ => none

/-- Keys and values that take turns, as members of a mapping. -/
def membersOf : List Yaml → List (Yaml × Yaml)
  | key :: value :: rest => (key, value) :: membersOf rest
  | _ => []

end Yaml

end WorkMarket
