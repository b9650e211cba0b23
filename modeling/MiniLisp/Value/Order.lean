import MiniLisp.Value.Kind

/-!
# The order of values

This module supplies a comparison of any two values.  Values of different rank
are ordered by rank.  Of equal rank, false comes before true, numbers are
ordered by value, texts by their code points, sequences and maps item by item,
and functions by their creation.
-/

namespace MiniLisp.Value

mutual

/-- The comparison of two values. -/
def order : Value → Value → Ordering
  | left@nil, right => compare left.rank right.rank
  | left@(boolean truth), right =>
    match right with
    | boolean other => compare truth other
    | _ => compare left.rank right.rank
  | left@(number integer), right =>
    match right with
    | number other => compare integer other
    | _ => compare left.rank right.rank
  | left@(string contents), right =>
    match right with
    | string other => compare contents other
    | _ => compare left.rank right.rank
  | left@(symbol name), right =>
    match right with
    | symbol other => compare name other
    | _ => compare left.rank right.rank
  | left@(keyword name), right =>
    match right with
    | keyword other => compare name other
    | _ => compare left.rank right.rank
  | left@(list items), right =>
    match right with
    | list others => orderItems items others
    | vector others => orderItems items others
    | _ => compare left.rank right.rank
  | left@(vector items), right =>
    match right with
    | list others => orderItems items others
    | vector others => orderItems items others
    | _ => compare left.rank right.rank
  | left@(map entries), right =>
    match right with
    | map others => orderEntries entries others
    | _ => compare left.rank right.rank
  | left@(closure identity _ _ _), right =>
    match right with
    | closure other _ _ _ => compare identity other
    | _ => compare left.rank right.rank
  | left@(native identity _), right =>
    match right with
    | native other _ => compare identity other
    | _ => compare left.rank right.rank
  | left@(comment text), right =>
    match right with
    | comment other => compare text other
    | _ => compare left.rank right.rank

/-- The comparison of two sequences at the first place where they differ. -/
def orderItems : List Value → List Value → Ordering
  | [], [] => .eq
  | [], _ :: _ => .lt
  | _ :: _, [] => .gt
  | left :: lefts, right :: rights =>
    (order left right).then (orderItems lefts rights)

/-- The comparison of two maps, entry by entry, keys before values. -/
def orderEntries : List (Value × Value) → List (Value × Value) → Ordering
  | [], [] => .eq
  | [], _ :: _ => .lt
  | _ :: _, [] => .gt
  | (key, value) :: lefts, (otherKey, otherValue) :: rights =>
    ((order key otherKey).then (order value otherValue)).then
      (orderEntries lefts rights)

end

instance : Ord Value := ⟨order⟩

theorem compare_eq_order (left right : Value) : compare left right = order left right := rfl

end MiniLisp.Value
