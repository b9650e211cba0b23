import MiniLisp.Proofs.Value.Parts
import MiniLisp.Value.Equality

/-!
# The order of values is total

This module shows that the comparison of values is a total order whose
equivalence is the equality of the language.

Two values of different rank are compared by rank.  Two collections of the same
rank are compared part by part, whatever their kind, so lists, vectors and maps
are treated alike (`order_of_collections`).  Each law then passes from the parts
to the whole, with the comparison of two sequences in between.

Transitivity is proved in the stronger form that two comparisons which do not
descend compose (`Composes`): the comparison of the outer values is decided by
the first of the two that is strict.  Only this form passes through the
comparison of sequences, where a strict comparison hides all that follow.
-/

namespace MiniLisp

namespace Value

/-- Sequences and maps. -/
def isCollection : Value → Bool
  | list _ => true
  | vector _ => true
  | map _ => true
  | _ => false

/-! ## Maps are compared like sequences -/

/-- The entries of maps are compared like the sequences of their keys and values. -/
theorem orderEntries_eq_orderItems (lefts rights : List (Value × Value)) :
    orderEntries lefts rights =
      orderItems (Entries.items lefts) (Entries.items rights) := by
  induction lefts generalizing rights with
  | nil =>
      cases rights with
      | nil => rfl
      | cons entry rights => rfl
  | cons entry lefts ih =>
      cases rights with
      | nil => rfl
      | cons other rights =>
          simp only [orderEntries, Entries.items, orderItems, ih,
            Ordering.then_assoc]

/-- The entries of maps are equal like the sequences of their keys and values. -/
theorem equalEntries_eq_equalItems (lefts rights : List (Value × Value)) :
    equalEntries lefts rights =
      equalItems (Entries.items lefts) (Entries.items rights) := by
  induction lefts generalizing rights with
  | nil =>
      cases rights with
      | nil => rfl
      | cons entry rights => rfl
  | cons entry lefts ih =>
      cases rights with
      | nil => rfl
      | cons other rights =>
          simp only [equalEntries, Entries.items, equalItems, ih,
            Bool.and_assoc]

/-! ## Comparison by rank, and comparison by parts -/

/-- Values of different rank are compared by rank. -/
theorem order_of_rank_ne
    {left right : Value}
    (different : left.rank ≠ right.rank) :
    left.order right = compare left.rank right.rank := by
  cases left <;> cases right <;>
    first
    | rfl
    | exact absurd rfl different

/-- Values of different rank are not equal. -/
theorem equal_of_rank_ne
    {left right : Value}
    (different : left.rank ≠ right.rank) :
    left.equal right = false := by
  cases left <;> cases right <;>
    first
    | rfl
    | exact absurd rfl different

/-- Collections of the same rank are compared part by part. -/
theorem order_of_collections
    {left right : Value}
    (collection : left.isCollection = true)
    (sameRank : left.rank = right.rank) :
    left.order right = orderItems left.parts right.parts := by
  cases left <;> cases collection <;> cases right <;>
    first
    | rfl
    | exact orderEntries_eq_orderItems _ _
    | cases sameRank

/-- Collections of the same rank are equal if their parts are. -/
theorem equal_of_collections
    {left right : Value}
    (collection : left.isCollection = true)
    (sameRank : left.rank = right.rank) :
    left.equal right = equalItems left.parts right.parts := by
  cases left <;> cases collection <;> cases right <;>
    first
    | rfl
    | exact equalEntries_eq_equalItems _ _
    | cases sameRank

/-- A value of the rank of a collection is a collection. -/
theorem isCollection_of_rank_eq
    {left right : Value}
    (collection : left.isCollection = true)
    (sameRank : left.rank = right.rank) :
    right.isCollection = true := by
  cases left <;> cases collection <;> cases right <;>
    first
    | rfl
    | cases sameRank

/-! ## Reversal -/

private theorem orderItems_swap_of_each
    (lefts rights : List Value)
    (each :
      ∀ left ∈ lefts, ∀ right : Value,
        right.order left = (left.order right).swap) :
    orderItems rights lefts = (orderItems lefts rights).swap := by
  induction lefts generalizing rights with
  | nil =>
      cases rights with
      | nil => rfl
      | cons right rights => rfl
  | cons left lefts ih =>
      cases rights with
      | nil => rfl
      | cons right rights =>
          have heads : right.order left = (left.order right).swap :=
            each left List.mem_cons_self right
          have tails : orderItems rights lefts = (orderItems lefts rights).swap :=
            ih rights fun item member => each item (List.mem_cons_of_mem left member)
          rw [orderItems, orderItems, heads, tails, Ordering.swap_then]

/-- Comparing in the other direction reverses the result. -/
theorem order_swap (left right : Value) :
    right.order left = (left.order right).swap := by
  induction left using induction_on_parts generalizing right with
  | step left ih =>
      by_cases sameRank : left.rank = right.rank
      · by_cases collection : left.isCollection = true
        · have other := isCollection_of_rank_eq collection sameRank
          rw [order_of_collections other sameRank.symm,
            order_of_collections collection sameRank]
          exact orderItems_swap_of_each left.parts right.parts ih
        · cases left <;> cases right <;>
            first
            | exact absurd rfl collection
            | (cases sameRank; done)
            | exact Std.OrientedOrd.eq_swap
      · rw [order_of_rank_ne sameRank, order_of_rank_ne (Ne.symm sameRank)]
        exact Std.OrientedOrd.eq_swap

/-! ## Comparing equal and being equal -/

private theorem orderItems_eq_iff_of_each
    (lefts rights : List Value)
    (each :
      ∀ left ∈ lefts, ∀ right : Value,
        left.order right = .eq ↔ left.equal right = true) :
    orderItems lefts rights = .eq ↔ equalItems lefts rights = true := by
  induction lefts generalizing rights with
  | nil =>
      cases rights <;> simp [orderItems, equalItems]
  | cons left lefts ih =>
      cases rights with
      | nil =>
          simp [orderItems, equalItems]
      | cons right rights =>
          have heads := each left List.mem_cons_self right
          have tails :=
            ih rights fun item member => each item (List.mem_cons_of_mem left member)
          simp only [orderItems, equalItems, Ordering.then_eq_eq, heads, tails,
            Bool.and_eq_true]

/-- Values compare equal exactly if they are equal in the language. -/
theorem order_eq_iff (left right : Value) :
    left.order right = .eq ↔ left.equal right = true := by
  induction left using induction_on_parts generalizing right with
  | step left ih =>
      by_cases sameRank : left.rank = right.rank
      · by_cases collection : left.isCollection = true
        · rw [order_of_collections collection sameRank,
            equal_of_collections collection sameRank]
          exact orderItems_eq_iff_of_each left.parts right.parts ih
        · cases left <;> cases right <;>
            first
            | exact absurd rfl collection
            | (cases sameRank; done)
            | simp [order, equal, rank]
      · rw [order_of_rank_ne sameRank, equal_of_rank_ne sameRank]
        simp [sameRank]

/-! ## Transitivity -/

/--
Two comparisons in a row compose if, whenever neither of them descends, the
comparison of the outer values is the first strict one of the two.
-/
def Composes (first second whole : Ordering) : Prop :=
  first.isLE → second.isLE → whole = first.then second

theorem Composes.of_compare
    {Key : Type}
    [Ord Key]
    [Std.TransOrd Key]
    (first second third : Key) :
    Composes (compare first second) (compare second third) (compare first third) := by
  intro firstLE secondLE
  cases comparison : compare first second with
  | lt => exact Std.TransCmp.lt_of_lt_of_isLE comparison secondLE
  | eq => exact Std.TransCmp.congr_left comparison
  | gt => simp [comparison] at firstLE

/-- Comparisons that compose one by one compose as a sequence. -/
theorem Composes.andThen
    {first second whole firstRest secondRest wholeRest : Ordering}
    (heads : Composes first second whole)
    (rests : Composes firstRest secondRest wholeRest) :
    Composes (first.then firstRest) (second.then secondRest)
      (whole.then wholeRest) := by
  intro firstLE secondLE
  cases first with
  | lt =>
      have secondHeadLE : second.isLE := by
        cases second <;> simp_all
      rw [heads rfl secondHeadLE]
      rfl
  | eq =>
      cases second with
      | lt =>
          rw [heads rfl rfl]
          cases firstRest <;> simp_all
      | eq =>
          rw [heads rfl rfl]
          exact rests firstLE secondLE
      | gt => cases secondLE
  | gt => cases firstLE

private theorem orderItems_composes_of_each
    (lefts middles rights : List Value)
    (each :
      ∀ left ∈ lefts, ∀ middle right : Value,
        Composes (left.order middle) (middle.order right) (left.order right)) :
    Composes (orderItems lefts middles) (orderItems middles rights)
      (orderItems lefts rights) := by
  induction lefts generalizing middles rights with
  | nil =>
      cases middles <;> cases rights <;>
        simp [Composes, orderItems]
  | cons left lefts ih =>
      cases middles with
      | nil => simp [Composes, orderItems]
      | cons middle middles =>
          cases rights with
          | nil => simp [Composes, orderItems]
          | cons right rights =>
              have heads := each left List.mem_cons_self middle right
              have tails :=
                ih middles rights
                  fun item member => each item (List.mem_cons_of_mem left member)
              exact heads.andThen tails

/-- Three values of which not all have the same rank are compared by rank. -/
private theorem order_composes_of_rank
    {left middle right : Value}
    (different : left.rank ≠ middle.rank ∨ middle.rank ≠ right.rank) :
    Composes (left.order middle) (middle.order right) (left.order right) := by
  have rankLE : ∀ first second : Value,
      (first.order second).isLE → first.rank ≤ second.rank := by
    intro first second orderLE
    by_cases sameRank : first.rank = second.rank
    · exact Nat.le_of_eq sameRank
    · rw [order_of_rank_ne sameRank] at orderLE
      exact Nat.isLE_compare.1 orderLE
  intro firstLE secondLE
  have first := rankLE left middle firstLE
  have second := rankLE middle right secondLE
  have outer : left.order right = .lt := by
    rw [order_of_rank_ne (by omega)]
    exact Nat.compare_eq_lt.2 (by omega)
  rw [outer]
  by_cases sameRank : left.rank = middle.rank
  · have strict : middle.order right = .lt := by
      rw [order_of_rank_ne (by omega)]
      exact Nat.compare_eq_lt.2 (by omega)
    rw [strict]
    cases comparison : left.order middle <;> simp_all
  · have strict : left.order middle = .lt := by
      rw [order_of_rank_ne sameRank]
      exact Nat.compare_eq_lt.2 (by omega)
    rw [strict]
    rfl

/-- Comparisons of values that do not descend compose. -/
theorem order_composes (left middle right : Value) :
    Composes (left.order middle) (middle.order right) (left.order right) := by
  induction left using induction_on_parts generalizing middle right with
  | step left ih =>
      by_cases sameRank : left.rank = middle.rank ∧ middle.rank = right.rank
      · obtain ⟨first, second⟩ := sameRank
        by_cases collection : left.isCollection = true
        · have between := isCollection_of_rank_eq collection first
          rw [order_of_collections collection first,
            order_of_collections between second,
            order_of_collections collection (first.trans second)]
          exact orderItems_composes_of_each left.parts middle.parts right.parts ih
        · cases left <;> cases middle <;>
            first
            | exact absurd rfl collection
            | (cases first; done)
            | cases right <;>
                first
                | (cases second; done)
                | exact Composes.of_compare _ _ _
      · exact order_composes_of_rank (by omega)

/-! ## The total order -/

instance : Std.TransCmp order where
  eq_swap := by
    intro left right
    exact order_swap right left
  isLE_trans := by
    intro left middle right firstLE secondLE
    rw [order_composes left middle right firstLE secondLE]
    exact Ordering.isLE_then_iff_and.2 ⟨firstLE, Or.inr secondLE⟩

instance : Std.TransOrd Value :=
  inferInstanceAs (Std.TransCmp order)

instance : Std.LawfulBEqOrd Value where
  compare_eq_iff_beq := by
    intro left right
    exact order_eq_iff left right

/--
The comparison of values is a total order: exchanging the sides reverses it, it
is transitive, and it takes two values as equal exactly if the language does.
Equality in the language is therefore an equivalence.
-/
theorem compare_isTotalOrder :
    (∀ left right : Value, compare right left = (compare left right).swap) ∧
      (∀ left middle right : Value,
        (compare left middle).isLE → (compare middle right).isLE →
          (compare left right).isLE) ∧
      (∀ left right : Value, compare left right = .eq ↔ (left == right) = true) ∧
      Equivalence fun left right : Value => (left == right) = true := by
  refine ⟨order_swap, ?_, order_eq_iff, ?_⟩
  · intro left middle right firstLE secondLE
    exact Std.TransOrd.isLE_trans firstLE secondLE
  · exact ⟨fun value => BEq.rfl, fun equal => BEq.symm equal,
      fun first second => BEq.trans first second⟩

/-- A list, a longer vector and a map ascend, although their kinds differ. -/
theorem compare_isTotalOrder_of_nested :
    (compare (list [number 1]) (vector [number 1, nil])).isLE ∧
      (compare (vector [number 1, nil]) (map [(list [], comment ";")])).isLE ∧
      (compare (list [number 1]) (map [(list [], comment ";")])).isLE :=
  ⟨by decide, by decide,
    compare_isTotalOrder.2.1 _ (vector [number 1, nil]) _ (by decide) (by decide)⟩

end Value

end MiniLisp
