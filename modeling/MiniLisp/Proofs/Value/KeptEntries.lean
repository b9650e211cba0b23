import MiniLisp.Proofs.Value.AscendingEntries
import Mathlib.Data.List.Induction
import Mathlib.Data.List.Sort

/-!
# Entries that a map keeps

This module shows which of the pairs that a map is built from become its entries:
those whose key no later pair repeats, in ascending order of keys
(`Entries.keeps_ofPairs`).  Nothing else has this property, so that it can stand for
the construction (`Entries.Keeps.eq_ofPairs`).  The order of two pairs matters only if
their keys are equal (`Entries.ofPairs_congr`).
-/

namespace MiniLisp.Entries

/-- The pair is among the pairs, and no later one has an equal key. -/
def IsLast
    (pairs : List (Value × Value))
    (pair : Value × Value) :
    Prop :=
  ∃ before after,
    pairs = before ++ pair :: after ∧ ∀ later ∈ after, (later.1 == pair.1) = false

/-- The entries ascend, and they are the pairs whose key no later pair repeats. -/
structure Keeps
    (pairs entries : List (Value × Value)) :
    Prop where
  ascending : Ascending entries
  mem_iff : ∀ pair, pair ∈ entries ↔ IsLast pairs pair

/-! ## Pairs one after the other -/

theorem not_isLast_nil (pair : Value × Value) : ¬ IsLast [] pair := by
  rintro ⟨before, after, whole, -⟩
  cases before <;> cases whole

/-- One more pair takes the place of those with an equal key. -/
theorem isLast_concat_iff
    {pairs : List (Value × Value)}
    {newest pair : Value × Value} :
    IsLast (pairs ++ [newest]) pair ↔
      pair = newest ∨ IsLast pairs pair ∧ (newest.1 == pair.1) = false := by
  constructor
  · rintro ⟨before, after, whole, different⟩
    rcases List.eq_nil_or_concat after with rfl | ⟨between, last, rfl⟩
    · have ends := (List.append_inj' whole rfl).2
      cases ends
      exact Or.inl rfl
    · rw [List.concat_eq_append, ← List.cons_append, ← List.append_assoc] at whole
      rw [List.concat_eq_append] at different
      rcases List.append_inj' whole rfl with ⟨rfl, ends⟩
      cases ends
      refine Or.inr ⟨⟨before, between, rfl, ?_⟩, ?_⟩
      · exact fun later member => different later (List.mem_append_left _ member)
      · exact different newest (List.mem_append_right between List.mem_cons_self)
  · rintro (rfl | ⟨⟨before, after, rfl, different⟩, newestDifferent⟩)
    · exact ⟨pairs, [], rfl, List.forall_mem_nil _⟩
    · refine ⟨before, after ++ [newest], by simp, ?_⟩
      refine List.forall_mem_append.2 ⟨different, ?_⟩
      exact List.forall_mem_singleton.2 newestDifferent

theorem beq_eq_false_of_order_ne_eq
    {left right : Value}
    (different : left.order right ≠ .eq) :
    (left == right) = false := by
  rw [Bool.eq_false_iff]
  intro equal
  exact different ((Value.order_eq_iff left right).2 equal)

/-- An insertion changes the entries of one key alone. -/
theorem mem_insert_iff
    {entries : List (Value × Value)}
    (ascending : Ascending entries)
    {key value : Value}
    {entry : Value × Value} :
    entry ∈ insert key value entries ↔
      entry = (key, value) ∨ entry ∈ entries ∧ (key == entry.1) = false := by
  induction entries with
  | nil =>
      show entry ∈ [(key, value)] ↔ _
      simp
  | cons other entries ih =>
      rcases other with ⟨otherKey, otherValue⟩
      rcases List.pairwise_cons.1 ascending with ⟨above, rest⟩
      -- the entries behind a key that is not below the new one have greater keys
      have behind :
          key.order otherKey ≠ .gt → ∀ entry ∈ entries, (key == entry.1) = false := by
        intro noGreater entry member
        have less : key.order entry.1 = .lt :=
          Std.TransCmp.lt_of_isLE_of_lt (Ordering.isLE_iff_ne_gt.2 noGreater)
            (above entry member)
        exact beq_eq_false_of_order_ne_eq (by simp [less])
      unfold insert
      split
      · next less =>
          rw [List.mem_cons]
          apply or_congr_right
          refine (and_iff_left_of_imp ?_).symm
          intro old
          rcases List.mem_cons.1 old with rfl | later
          · exact beq_eq_false_of_order_ne_eq (by simp [less])
          · exact behind (by simp [less]) entry later
      · next same =>
          rw [List.mem_cons, List.mem_cons]
          apply or_congr_right
          constructor
          · intro later
            exact ⟨Or.inr later, behind (by simp [same]) entry later⟩
          · rintro ⟨rfl | later, different⟩
            · have equal : (key == otherKey) = true := (Value.order_eq_iff key otherKey).1 same
              rw [equal] at different
              cases different
            · exact later
      · next greater =>
          have different : (key == otherKey) = false :=
            beq_eq_false_of_order_ne_eq (by simp [greater])
          rw [List.mem_cons, ih rest, List.mem_cons]
          constructor
          · rintro (rfl | isNew | ⟨later, differs⟩)
            · exact Or.inr ⟨Or.inl rfl, different⟩
            · exact Or.inl isNew
            · exact Or.inr ⟨Or.inr later, differs⟩
          · rintro (isNew | ⟨rfl | later, differs⟩)
            · exact Or.inr (Or.inl isNew)
            · exact Or.inl rfl
            · exact Or.inr (Or.inr ⟨later, differs⟩)

/-! ## All pairs -/

theorem ofPairs_concat
    (pairs : List (Value × Value))
    (newest : Value × Value) :
    ofPairs (pairs ++ [newest]) = insert newest.1 newest.2 (ofPairs pairs) :=
  List.foldl_concat _ _ newest pairs

/-- A map keeps the pairs whose key no later pair repeats. -/
theorem mem_ofPairs_iff
    {pairs : List (Value × Value)}
    {pair : Value × Value} :
    pair ∈ ofPairs pairs ↔ IsLast pairs pair := by
  induction pairs using List.reverseRecOn with
  | nil =>
      show pair ∈ [] ↔ _
      exact iff_of_false List.not_mem_nil (not_isLast_nil pair)
  | append_singleton pairs newest ih =>
      rw [ofPairs_concat, mem_insert_iff (ofPairs_ascending pairs), ih, isLast_concat_iff]

theorem keeps_ofPairs (pairs : List (Value × Value)) : Keeps pairs (ofPairs pairs) where
  ascending := ofPairs_ascending pairs
  mem_iff := fun _ => mem_ofPairs_iff

/-- What is kept of some pairs is the map that is built from them. -/
theorem Keeps.eq_ofPairs
    {pairs entries : List (Value × Value)}
    (keeps : Keeps pairs entries) :
    entries = ofPairs pairs := by
  let below (left right : Value × Value) : Prop := left.1.order right.1 = .lt
  have antisymmetric : Std.Antisymm below := ⟨fun _ _ less more =>
    absurd more (Std.OrientedCmp.not_lt_of_lt less)⟩
  have irreflexive : Std.Irrefl below := ⟨fun entry less => by
    have same : entry.1.order entry.1 = .eq := Std.ReflCmp.compare_self
    rw [show entry.1.order entry.1 = .lt from less] at same
    cases same⟩
  apply List.Pairwise.eq_of_mem_iff (r := below) keeps.ascending (ofPairs_ascending pairs)
  intro entry
  rw [keeps.mem_iff, mem_ofPairs_iff]

/-! ## Pairs in another order -/

/-- The last pair with a key is the last of those that have the key. -/
theorem isLast_iff_getLast?_filter
    {pairs : List (Value × Value)}
    {pair : Value × Value} :
    IsLast pairs pair ↔ (pairs.filter (·.1 == pair.1)).getLast? = some pair := by
  induction pairs using List.reverseRecOn with
  | nil => exact iff_of_false (not_isLast_nil pair) (by simp)
  | append_singleton pairs newest ih =>
      rw [isLast_concat_iff, ih, List.filter_append, List.filter_singleton]
      cases same : newest.1 == pair.1 with
      | true =>
          rw [cond_true, List.getLast?_concat, Option.some.injEq, eq_comm (a := newest)]
          refine or_iff_left ?_
          rintro ⟨-, different⟩
          cases different
      | false =>
          rw [cond_false, List.append_nil, and_iff_left rfl]
          refine or_iff_right ?_
          rintro rfl
          rw [BEq.rfl] at same
          cases same

/-- Some last pair has the key of any pair. -/
theorem exists_isLast_of_mem
    {pairs : List (Value × Value)}
    {pair : Value × Value}
    (member : pair ∈ pairs) :
    ∃ last, IsLast pairs last ∧ (last.1 == pair.1) = true := by
  have nonempty : pairs.filter (·.1 == pair.1) ≠ [] :=
    List.ne_nil_of_mem (List.mem_filter.2 ⟨member, BEq.rfl⟩)
  obtain ⟨last, isLast⟩ := Option.ne_none_iff_exists'.1 (mt List.getLast?_eq_none_iff.1 nonempty)
  have sameKey : (last.1 == pair.1) = true :=
    (List.mem_filter.1 (List.mem_of_getLast? isLast)).2
  refine ⟨last, isLast_iff_getLast?_filter.2 ?_, sameKey⟩
  rw [← isLast]
  congr 2
  funext other
  exact BEq.congr_right sameKey

/-- Only the order of pairs with equal keys matters to a map. -/
theorem ofPairs_congr
    {pairs others : List (Value × Value)}
    (sameOrder : ∀ key, others.filter (·.1 == key) = pairs.filter (·.1 == key)) :
    ofPairs others = ofPairs pairs := by
  apply Keeps.eq_ofPairs
  refine ⟨ofPairs_ascending others, fun pair => ?_⟩
  rw [mem_ofPairs_iff, isLast_iff_getLast?_filter, isLast_iff_getLast?_filter, sameOrder]

/-- With pairwise unequal keys, there is no order of pairs with equal keys. -/
theorem filter_eq_of_perm
    {pairs others : List (Value × Value)}
    (distinct : pairs.Pairwise fun left right => (left.1 == right.1) = false)
    (reordered : pairs.Perm others)
    (key : Value) :
    others.filter (·.1 == key) = pairs.filter (·.1 == key) := by
  have permuted := reordered.filter (·.1 == key)
  have distinctKeys := distinct.filter (·.1 == key)
  have sameKey : ∀ pair ∈ pairs.filter (·.1 == key), (pair.1 == key) = true :=
    fun pair member => (List.mem_filter.1 member).2
  generalize pairs.filter (·.1 == key) = chosen at permuted distinctKeys sameKey ⊢
  cases chosen with
  | nil => exact permuted.nil_eq.symm
  | cons first rest =>
      cases rest with
      | nil => exact permuted.singleton_eq.symm
      | cons second rest =>
          have different := (List.pairwise_cons.1 distinctKeys).1 second List.mem_cons_self
          have toKey := sameKey first List.mem_cons_self
          have fromKey := BEq.symm (sameKey second (List.mem_cons_of_mem first List.mem_cons_self))
          rw [BEq.trans toKey fromKey] at different
          cases different

end MiniLisp.Entries
