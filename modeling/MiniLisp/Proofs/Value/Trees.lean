import MiniLisp.Builtin.Result
import MiniLisp.Proofs.Value.TotalOrder

/-!
# Trees of values

This module supplies the tree of a value: what is left of it when every vector, at every
depth, becomes a list and every function becomes its identity.  Two values are equal in
the language exactly if they have the same tree (`Value.equal_iff_tree_eq`).

The function `=` compares all its arguments with the first one only.  As equality is
equality of trees, this is enough for all pairs, and neither the order of the arguments
nor the choice of the first one matters (`Builtin.equal_result_iff_tree`).
-/

namespace MiniLisp

/-- A value without the difference of lists and vectors, and with functions as identities. -/
inductive Tree where
  | nil
  | boolean (truth : Bool)
  | number (integer : Int64)
  | string (contents : String)
  | symbol (name : String)
  | keyword (name : String)
  /-- The items of a list or of a vector. -/
  | sequence (items : List Tree)
  /-- The keys of a map with their values, in the order of the keys. -/
  | map (entries : List (Tree × Tree))
  | closure (identity : Nat)
  | native (identity : Nat)
  | comment (text : String)

namespace Value

mutual

/-- The tree of a value. -/
def tree : Value → Tree
  | nil => .nil
  | boolean truth => .boolean truth
  | number integer => .number integer
  | string contents => .string contents
  | symbol name => .symbol name
  | keyword name => .keyword name
  | list items => .sequence (treeItems items)
  | vector items => .sequence (treeItems items)
  | map entries => .map (treeEntries entries)
  | closure identity _ _ _ => .closure identity
  | native identity _ => .native identity
  | comment text => .comment text

/-- The trees of items. -/
def treeItems : List Value → List Tree
  | [] => []
  | item :: items => tree item :: treeItems items

/-- The trees of keys and values. -/
def treeEntries : List (Value × Value) → List (Tree × Tree)
  | [] => []
  | (key, value) :: entries => (tree key, tree value) :: treeEntries entries

end

theorem treeItems_eq_map (items : List Value) :
    treeItems items = items.map tree := by
  induction items with
  | nil => rfl
  | cons item items ih => rw [treeItems, ih, List.map_cons]

@[simp]
theorem tree_list (items : List Value) :
    (list items).tree = .sequence (items.map tree) := by
  rw [tree, treeItems_eq_map]

@[simp]
theorem tree_vector (items : List Value) :
    (vector items).tree = .sequence (items.map tree) := by
  rw [tree, treeItems_eq_map]

@[simp]
theorem tree_map (entries : List (Value × Value)) :
    (map entries).tree = .map (treeEntries entries) := by
  rw [tree]

/-! ## Equality is equality of trees -/

private theorem equalItems_iff_of_each
    (lefts rights : List Value)
    (each :
      ∀ left ∈ lefts, ∀ right : Value,
        left.equal right = true ↔ left.tree = right.tree) :
    equalItems lefts rights = true ↔ lefts.map tree = rights.map tree := by
  induction lefts generalizing rights with
  | nil =>
      cases rights <;> simp [equalItems]
  | cons left lefts ih =>
      cases rights with
      | nil => simp [equalItems]
      | cons right rights =>
          have heads := each left List.mem_cons_self right
          have tails :=
            ih rights fun item member => each item (List.mem_cons_of_mem left member)
          simp only [equalItems, Bool.and_eq_true, heads, tails, List.map_cons,
            List.cons.injEq]

/-- Entries have the same trees if their keys and values do, as one sequence. -/
theorem treeEntries_eq_iff (lefts rights : List (Value × Value)) :
    treeEntries lefts = treeEntries rights ↔
      (Entries.items lefts).map tree = (Entries.items rights).map tree := by
  induction lefts generalizing rights with
  | nil =>
      cases rights <;> simp [treeEntries, Entries.items]
  | cons left lefts ih =>
      cases rights with
      | nil => simp [treeEntries, Entries.items]
      | cons right rights =>
          simp only [treeEntries, Entries.items, List.map_cons, List.cons.injEq,
            Prod.mk.injEq, ih, and_assoc]

/-- Two values are equal in the language exactly if they have the same tree. -/
theorem equal_iff_tree_eq (left right : Value) :
    left.equal right = true ↔ left.tree = right.tree := by
  induction left using induction_on_parts generalizing right with
  | step left ih =>
      have ofParts := equalItems_iff_of_each left.parts right.parts ih
      cases left with
      | list items =>
          cases right with
          | list others => simpa [equal] using ofParts
          | vector others => simpa [equal] using ofParts
          | _ => simp [equal, tree]
      | vector items =>
          cases right with
          | list others => simpa [equal] using ofParts
          | vector others => simpa [equal] using ofParts
          | _ => simp [equal, tree]
      | map entries =>
          cases right with
          | map others =>
              rw [equal, equalEntries_eq_equalItems, tree_map, tree_map, Tree.map.injEq,
                treeEntries_eq_iff]
              exact ofParts
          | _ => simp [equal, tree]
      | _ => cases right <;> simp [equal, tree]

/-! ## Parts at every depth -/

/-- The part that a path of positions leads to; keys and values of a map are counted alike. -/
def partAt? : List Nat → Value → Option Value
  | [], value => some value
  | position :: path, value => value.parts[position]?.bind (partAt? path)

theorem map_tree_parts_congr
    {left right : Value}
    (same : left.tree = right.tree) :
    left.parts.map tree = right.parts.map tree := by
  cases left with
  | list items =>
      cases right with
      | list others => simpa using same
      | vector others => simpa using same
      | _ => simp [tree] at same
  | vector items =>
      cases right with
      | list others => simpa using same
      | vector others => simpa using same
      | _ => simp [tree] at same
  | map entries =>
      cases right with
      | map others =>
          rw [tree_map, tree_map, Tree.map.injEq] at same
          exact (treeEntries_eq_iff entries others).1 same
      | _ => simp [tree] at same
  | _ =>
      cases right <;>
        first
        | rfl
        | simp [tree] at same

/-- Values with the same tree have parts with the same tree at the end of every path. -/
theorem map_tree_partAt?_congr
    {left right : Value}
    (same : left.tree = right.tree)
    (path : List Nat) :
    (left.partAt? path).map tree = (right.partAt? path).map tree := by
  induction path generalizing left right with
  | nil => exact congrArg some same
  | cons position path ih =>
      have here :
          left.parts[position]?.map tree = right.parts[position]?.map tree := by
        rw [← List.getElem?_map, ← List.getElem?_map, map_tree_parts_congr same]
      rw [partAt?, partAt?]
      generalize left.parts[position]? = part at here ⊢
      generalize right.parts[position]? = other at here ⊢
      cases part with
      | none =>
          cases other with
          | none => rfl
          | some other => cases here
      | some part =>
          cases other with
          | none => cases here
          | some other => exact ih (Option.some.inj here)

/-- At no path does a map stand in one of two equal values and a list or vector in the other. -/
theorem not_sequence_of_map_at
    {left right : Value}
    (same : left.tree = right.tree)
    {path : List Nat}
    {entries : List (Value × Value)}
    (isMap : left.partAt? path = some (map entries))
    {other : Value}
    (found : right.partAt? path = some other) :
    other.items? = none := by
  have trees := map_tree_partAt?_congr same path
  rw [isMap, found, Option.map_some, Option.map_some, Option.some.injEq] at trees
  cases other with
  | list items => simp at trees
  | vector items => simp at trees
  | _ => rfl

end Value

/-! ## All arguments of a function at once -/

namespace Builtin

/-- All arguments equal the first one exactly if all have one tree. -/
theorem all_beq_iff_tree
    (first : Value)
    (rest : List Value) :
    rest.all (· == first) = true ↔
      ∃ tree, ∀ argument ∈ first :: rest, argument.tree = tree := by
  rw [List.all_eq_true]
  constructor
  · intro equal
    refine ⟨first.tree, ?_⟩
    intro argument member
    rcases List.mem_cons.1 member with rfl | later
    · rfl
    · exact (Value.equal_iff_tree_eq argument first).1 (equal argument later)
  · rintro ⟨tree, same⟩ argument member
    apply (Value.equal_iff_tree_eq argument first).2
    rw [same argument (List.mem_cons_of_mem first member), same first List.mem_cons_self]

/-- With two arguments or more, the function is true exactly if all of them have one tree. -/
theorem exists_equal_result
    {arguments : List Value}
    (several : 2 ≤ arguments.length) :
    ∃ truth,
      equal.result arguments = .ok (.boolean truth) ∧
        (truth = true ↔ ∃ tree, ∀ argument ∈ arguments, argument.tree = tree) := by
  match arguments, several with
  | first :: second :: rest, _ =>
      exact ⟨(second :: rest).all (· == first), rfl, all_beq_iff_tree first (second :: rest)⟩

/--
The function `=` of two arguments or more is true exactly if all arguments have one tree.
It then holds of every two of them, in whatever order the arguments are given.  It is
false if at the end of some path a map stands in one argument and a list or vector in
another.
-/
theorem equal_result_iff_tree
    {arguments : List Value}
    (several : 2 ≤ arguments.length) :
    ∃ truth,
      equal.result arguments = .ok (.boolean truth) ∧
        (truth = true ↔ ∃ tree, ∀ argument ∈ arguments, argument.tree = tree) ∧
        (∀ others, arguments.Perm others → equal.result others = .ok (.boolean truth)) ∧
        (truth = true ↔ ∀ left ∈ arguments, ∀ right ∈ arguments, (left == right) = true) ∧
        ∀ left ∈ arguments, ∀ right ∈ arguments, ∀ path entries other,
          left.partAt? path = some (.map entries) → right.partAt? path = some other →
            other.items?.isSome = true → truth = false := by
  obtain ⟨truth, given, isTrue⟩ := exists_equal_result several
  refine ⟨truth, given, isTrue, ?_, ?_, ?_⟩
  · intro others reordered
    rw [reordered.length_eq] at several
    obtain ⟨again, givenAgain, isTrueAgain⟩ := exists_equal_result several
    have same : again = truth := by
      rw [Bool.eq_iff_iff, isTrue, isTrueAgain]
      simp only [reordered.mem_iff]
    rw [givenAgain, same]
  · rw [isTrue]
    constructor
    · rintro ⟨tree, same⟩ left isLeft right isRight
      apply (Value.equal_iff_tree_eq left right).2
      rw [same left isLeft, same right isRight]
    · intro equal
      have nonempty : 0 < arguments.length := by omega
      obtain ⟨first, rest, rfl⟩ := List.exists_cons_of_length_pos nonempty
      refine ⟨first.tree, fun argument member => ?_⟩
      have equalFirst := equal argument member first List.mem_cons_self
      exact (Value.equal_iff_tree_eq argument first).1 equalFirst
  · intro left isLeft right isRight path entries other isMap found isSequence
    rw [Bool.eq_false_iff, Ne, isTrue]
    rintro ⟨tree, same⟩
    have noSequence :=
      Value.not_sequence_of_map_at ((same left isLeft).trans (same right isRight).symm) isMap found
    rw [noSequence] at isSequence
    cases isSequence

/-- Two values that differ in the kinds of their sequences, one of them a key of a map. -/
def alikeMaps : List Value :=
  [.list [.map [(.vector [.number 1], .list [])]], .vector [.map [(.list [.number 1], .vector [])]]]

theorem equal_result_iff_tree_of_maps :
    2 ≤ alikeMaps.length ∧
      equal.result alikeMaps = .ok (.boolean true) ∧
      ∃ tree, ∀ argument ∈ alikeMaps, argument.tree = tree := by
  have several : 2 ≤ alikeMaps.length := by decide
  obtain ⟨truth, given, isTrue, -⟩ := equal_result_iff_tree several
  have isEqual : equal.result alikeMaps = .ok (.boolean true) := rfl
  rw [isEqual] at given
  cases given
  exact ⟨several, isEqual, isTrue.1 rfl⟩

end Builtin

end MiniLisp
