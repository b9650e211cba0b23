import MiniLisp.Value

/-!
# Kinds of values

This module supplies the kind of a value, the rank of a kind in the order of
all values, and the description of a value by kinds that messages show.

Lists and vectors are different kinds with one rank, because they are compared
item by item with one another.
-/

namespace MiniLisp.Value

/-- The name of the kind of a value. -/
def kindName : Value → String
  | nil => "Nil"
  | boolean _ => "Boolean"
  | number _ => "Number"
  | string _ => "String"
  | symbol _ => "Symbol"
  | keyword _ => "Keyword"
  | list _ => "List"
  | vector _ => "Vector"
  | map _ => "Map"
  | closure .. => "Function"
  | native .. => "Function"
  | comment _ => "Comment"

/-- The place of a value among the values of other kinds. -/
def rank : Value → Nat
  | nil => 0
  | boolean _ => 1
  | number _ => 2
  | string _ => 3
  | symbol _ => 4
  | keyword _ => 5
  | list _ => 6
  | vector _ => 6
  | map _ => 7
  | closure .. => 8
  | native .. => 9
  | comment _ => 10

mutual

/-- The kind of a value, followed by the descriptions of its parts. -/
def describe : Value → String
  | list items => "List (" ++ " ".intercalate (describeItems items) ++ ")"
  | vector items => "Vector [" ++ " ".intercalate (describeItems items) ++ "]"
  | map entries => "Map \x7b" ++ " ".intercalate (describeEntries entries) ++ "\x7d"
  | value => value.kindName

/-- The descriptions of items, in order. -/
def describeItems : List Value → List String
  | [] => []
  | item :: items => describe item :: describeItems items

/-- The descriptions of keys and their values, in order. -/
def describeEntries : List (Value × Value) → List String
  | [] => []
  | (key, value) :: entries =>
    describe key :: describe value :: describeEntries entries

end

/-- The descriptions of items are those of the single items. -/
theorem describeItems_eq_map (items : List Value) :
    describeItems items = items.map describe := by
  induction items with
  | nil => rfl
  | cons item items ih => simp [describeItems, ih]

end MiniLisp.Value
