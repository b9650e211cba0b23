import MiniLisp.Value.Order

/-!
# Entries of a map

This module supplies the construction of the entries of a map.  Entries stand
in ascending order of their keys.  Inserting an entry whose key is already
there replaces the whole entry, its key included, so that of several entries
with equal keys the last one stays.
-/

namespace MiniLisp.Entries

/-- The entries with one more entry at the place of its key. -/
def insert (key value : Value) : List (Value × Value) → List (Value × Value)
  | [] => [(key, value)]
  | (otherKey, otherValue) :: entries =>
    match key.order otherKey with
    | .lt => (key, value) :: (otherKey, otherValue) :: entries
    | .eq => (key, value) :: entries
    | .gt => (otherKey, otherValue) :: insert key value entries

/-- The entries that result from inserting pairs one after the other. -/
def ofPairs (pairs : List (Value × Value)) : List (Value × Value) :=
  pairs.foldl (fun entries pair => insert pair.1 pair.2 entries) []

/-- The consecutive pairs of a sequence; a last odd item is left out. -/
def pairs : List Value → List (Value × Value)
  | key :: value :: rest => (key, value) :: pairs rest
  | _ => []

/-- The entries given by a sequence of keys and values that alternate. -/
def ofItems? (items : List Value) : Option (List (Value × Value)) :=
  if items.length % 2 = 0 then
    some (ofPairs (pairs items))
  else
    none

/-- The keys and values of entries, alternating. -/
def items : List (Value × Value) → List Value
  | [] => []
  | (key, value) :: entries => key :: value :: items entries

@[simp]
theorem pairs_items (entries : List (Value × Value)) :
    pairs (items entries) = entries := by
  induction entries with
  | nil => rfl
  | cons entry entries ih => simp [items, pairs, ih]

end MiniLisp.Entries
