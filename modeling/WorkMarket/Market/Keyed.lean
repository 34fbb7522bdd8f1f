/-!
# Finite maps

A `Keyed` holds values by key.  A new key comes last; `arrange` brings the keys
into any order.  The laws at the end say what each operation does to `get?`.
-/

namespace WorkMarket

/-- Values by key, in the order in which the keys are gone through. -/
structure Keyed (κ β : Type) where
  entries : List (κ × β)
deriving DecidableEq

namespace Keyed

variable {κ β : Type} [DecidableEq κ]

/-- Nothing. -/
def empty : Keyed κ β :=
  ⟨[]⟩

instance : Inhabited (Keyed κ β) := ⟨empty⟩

/-- The keys. -/
def keys
    (map : Keyed κ β) :
    List κ :=
  map.entries.map Prod.fst

/-- The values. -/
def values
    (map : Keyed κ β) :
    List β :=
  map.entries.map Prod.snd

/-- The number of keys. -/
def size
    (map : Keyed κ β) :
    Nat :=
  map.entries.length

/-- The value of a key. -/
def get?
    (map : Keyed κ β)
    (key : κ) :
    Option β :=
  (map.entries.find? fun entry => entry.1 = key).map Prod.snd

/-- Whether a key has a value. -/
def contains
    (map : Keyed κ β)
    (key : κ) :
    Bool :=
  (map.get? key).isSome

/-- Replace the value of a key where it stands, or add the key at the end. -/
def putEntry
    (key : κ)
    (value : β) :
    List (κ × β) → List (κ × β)
  | [] => [(key, value)]
  | entry :: rest =>
      if entry.1 = key then (key, value) :: rest else entry :: putEntry key value rest

/-- Give a key a value. -/
def put
    (map : Keyed κ β)
    (key : κ)
    (value : β) :
    Keyed κ β :=
  ⟨putEntry key value map.entries⟩

/-- Take a key away. -/
def erase
    (map : Keyed κ β)
    (key : κ) :
    Keyed κ β :=
  ⟨map.entries.filter fun entry => entry.1 ≠ key⟩

/-- Change each value. -/
def mapValues
    {γ : Type}
    (map : Keyed κ β)
    (change : κ → β → γ) :
    Keyed κ γ :=
  ⟨map.entries.map fun entry => (entry.1, change entry.1 entry.2)⟩

/-- Bring the keys into the order of a list.  Keys that it lacks come last, in the
order that they have. -/
def arrange
    (map : Keyed κ β)
    (order : List κ) :
    Keyed κ β :=
  ⟨map.entries.mergeSort fun entry other => order.idxOf entry.1 ≤ order.idxOf other.1⟩

@[simp] theorem get?_empty
    (key : κ) :
    (empty : Keyed κ β).get? key = none :=
  rfl

theorem find?_putEntry
    (key other : κ)
    (value : β)
    (entries : List (κ × β)) :
    ((putEntry key value entries).find? fun entry => entry.1 = other).map Prod.snd =
      if key = other then some value
      else (entries.find? fun entry => entry.1 = other).map Prod.snd := by
  induction entries with
  | nil => by_cases same : key = other <;> simp [putEntry, same]
  | cons entry rest inductionHypothesis =>
      by_cases here : entry.1 = key
      · by_cases same : key = other <;> simp [putEntry, here, same]
      · by_cases found : entry.1 = other
        · have different : ¬key = other := fun same => here (found.trans same.symm)
          rw [putEntry, if_neg here, List.find?_cons_of_pos (by simpa using found),
            List.find?_cons_of_pos (by simpa using found), if_neg different]
        · simp only [putEntry, if_neg here, List.find?_cons, found, decide_false,
            inductionHypothesis]

theorem get?_put
    (map : Keyed κ β)
    (key other : κ)
    (value : β) :
    (map.put key value).get? other = if key = other then some value else map.get? other :=
  find?_putEntry key other value map.entries

theorem get?_erase
    (map : Keyed κ β)
    (key other : κ) :
    (map.erase key).get? other = if key = other then none else map.get? other := by
  unfold erase get?
  rw [List.find?_filter]
  by_cases same : key = other
  · subst same
    simp
  · rw [if_neg same]
    congr 2
    funext entry
    by_cases found : entry.1 = other
    · simp [found, Ne.symm same]
    · simp [found]

theorem get?_mapValues
    {γ : Type}
    (map : Keyed κ β)
    (change : κ → β → γ)
    (key : κ) :
    (map.mapValues change).get? key = (map.get? key).map (change key) := by
  unfold mapValues get?
  rw [List.find?_map, Option.map_map]
  change Option.map _ (map.entries.find? fun entry => entry.1 = key) = _
  cases found : map.entries.find? fun entry => entry.1 = key with
  | none => rfl
  | some entry =>
      have isKey : entry.1 = key := by simpa using List.find?_some found
      simp [isKey]

theorem contains_put
    (map : Keyed κ β)
    (key other : κ)
    (value : β) :
    (map.put key value).contains other = (decide (key = other) || map.contains other) := by
  unfold contains
  rw [get?_put]
  by_cases same : key = other <;> simp [same]

theorem contains_erase
    (map : Keyed κ β)
    (key other : κ) :
    (map.erase key).contains other = (!decide (key = other) && map.contains other) := by
  unfold contains
  rw [get?_erase]
  by_cases same : key = other <;> simp [same]

end Keyed
end WorkMarket
