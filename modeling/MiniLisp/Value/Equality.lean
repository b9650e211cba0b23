import MiniLisp.Value

/-!
# Equality of values

This module supplies the equality that the language itself sees.  A list and a
vector are equal if their items are, functions are equal only to themselves,
and all other values are equal if they have the same kind and equal parts.
-/

namespace MiniLisp.Value

mutual

/-- The equality of two values in the language. -/
def equal : Value → Value → Bool
  | nil, right =>
    match right with
    | nil => true
    | _ => false
  | boolean truth, right =>
    match right with
    | boolean other => truth == other
    | _ => false
  | number integer, right =>
    match right with
    | number other => integer == other
    | _ => false
  | string contents, right =>
    match right with
    | string other => contents == other
    | _ => false
  | symbol name, right =>
    match right with
    | symbol other => name == other
    | _ => false
  | keyword name, right =>
    match right with
    | keyword other => name == other
    | _ => false
  | list items, right =>
    match right with
    | list others => equalItems items others
    | vector others => equalItems items others
    | _ => false
  | vector items, right =>
    match right with
    | list others => equalItems items others
    | vector others => equalItems items others
    | _ => false
  | map entries, right =>
    match right with
    | map others => equalEntries entries others
    | _ => false
  | closure identity _ _ _, right =>
    match right with
    | closure other _ _ _ => identity == other
    | _ => false
  | native identity _, right =>
    match right with
    | native other _ => identity == other
    | _ => false
  | comment text, right =>
    match right with
    | comment other => text == other
    | _ => false

/-- The equality of two sequences of the same length, item by item. -/
def equalItems : List Value → List Value → Bool
  | [], [] => true
  | left :: lefts, right :: rights => equal left right && equalItems lefts rights
  | _, _ => false

/-- The equality of two maps of the same size, entry by entry. -/
def equalEntries : List (Value × Value) → List (Value × Value) → Bool
  | [], [] => true
  | (key, value) :: lefts, (otherKey, otherValue) :: rights =>
    equal key otherKey && equal value otherValue && equalEntries lefts rights
  | _, _ => false

end

instance : BEq Value := ⟨equal⟩

theorem beq_eq_equal (left right : Value) : (left == right) = equal left right := rfl

end MiniLisp.Value
