import MiniLisp.Form.Reading
import MiniLisp.Proofs.Value.KeptEntries

/-!
# Maps built from keys and values

This module shows which map a sequence of alternating keys and values makes
(`Form.collect_curly_builds_map`).

A sequence of odd length makes none, and the error gives its length.  Any other sequence
makes a map whose keys ascend strictly.  Every given key has an equal one in the map, and
the entry of a key is the last pair whose key is equal to it, with this key as it was given,
as a list or as a vector.  So pairs may change places freely as long as pairs with equal
keys stay in order, and the keys and values of the map make the same map again.
-/

namespace MiniLisp

namespace Form

/-- A sequence makes no map exactly if its length is odd, which the error then gives. -/
theorem collect_curly_eq_error_iff
    {items : List Value}
    {error : ParseError} :
    collect .curly items = .error error ↔
      items.length % 2 = 1 ∧ error = .oddMap items.length := by
  rw [collect, Entries.ofItems?]
  by_cases even : items.length % 2 = 0
  · rw [if_pos even]
    refine iff_of_false (by rintro ⟨⟩) ?_
    rintro ⟨odd, -⟩
    omega
  · have odd : items.length % 2 = 1 := by omega
    rw [if_neg even]
    simp [odd, eq_comm]

/-- Pairs that are given as one sequence make the map that is built from them. -/
theorem collect_curly_items (pairs : List (Value × Value)) :
    collect .curly (Entries.items pairs) = .ok (.map (Entries.ofPairs pairs)) := by
  rw [collect, Entries.ofItems?_items_eq_ofPairs]

/-- The keys of a map are the given ones, up to equality. -/
theorem exists_key_ofPairs_iff
    {pairs : List (Value × Value)}
    {key : Value} :
    (∃ entry ∈ Entries.ofPairs pairs, (entry.1 == key) = true) ↔
      ∃ pair ∈ pairs, (pair.1 == key) = true := by
  constructor
  · rintro ⟨entry, member, sameKey⟩
    exact ⟨entry, Entries.mem_of_mem_ofPairs member, sameKey⟩
  · rintro ⟨pair, member, sameKey⟩
    obtain ⟨last, isLast, sameAsPair⟩ := Entries.exists_isLast_of_mem member
    exact ⟨last, Entries.mem_ofPairs_iff.2 isLast, BEq.trans sameAsPair sameKey⟩

/--
A sequence of alternating keys and values makes no map exactly if its length is odd, and
the error gives the length.  Otherwise it makes the map of its consecutive pairs.  The keys
of the map ascend strictly and are the given keys up to equality, and its entries are the
pairs whose key no later pair repeats.  Pairs in another order make the same map, if pairs
with equal keys keep their order, and so in any order if no two keys are equal.  The keys
and values of the map make the map again.
-/
theorem collect_curly_builds_map (items : List Value) :
    (∀ error,
      collect .curly items = .error error ↔
        items.length % 2 = 1 ∧ error = .oddMap items.length) ∧
      (items.length % 2 = 0 →
        Entries.items (Entries.pairs items) = items ∧
          ∃ entries,
            collect .curly items = .ok (.map entries) ∧
              entries = Entries.ofPairs (Entries.pairs items) ∧
              Entries.Ascending entries ∧
              (∀ key,
                (∃ entry ∈ entries, (entry.1 == key) = true) ↔
                  ∃ pair ∈ Entries.pairs items, (pair.1 == key) = true) ∧
              (∀ entry, entry ∈ entries ↔ Entries.IsLast (Entries.pairs items) entry) ∧
              (∀ others : List (Value × Value),
                (∀ key,
                  others.filter (·.1 == key) = (Entries.pairs items).filter (·.1 == key)) →
                  collect .curly (Entries.items others) = .ok (.map entries)) ∧
              (∀ others : List (Value × Value),
                ((Entries.pairs items).Pairwise fun left right =>
                  (left.1 == right.1) = false) →
                  (Entries.pairs items).Perm others →
                    collect .curly (Entries.items others) = .ok (.map entries)) ∧
              collect .curly (Entries.items entries) = .ok (.map entries)) := by
  refine ⟨fun error => collect_curly_eq_error_iff, fun even => ?_⟩
  have alternating := Entries.items_pairs even
  have reordered :
      ∀ others : List (Value × Value),
        (∀ key, others.filter (·.1 == key) = (Entries.pairs items).filter (·.1 == key)) →
          collect .curly (Entries.items others) =
            .ok (.map (Entries.ofPairs (Entries.pairs items))) := by
    intro others sameOrder
    rw [collect_curly_items, Entries.ofPairs_congr sameOrder]
  refine ⟨alternating, Entries.ofPairs (Entries.pairs items), ?_, rfl,
    Entries.ofPairs_ascending _, fun key => exists_key_ofPairs_iff,
    fun entry => Entries.mem_ofPairs_iff, reordered, ?_, ?_⟩
  · have built := collect_curly_items (Entries.pairs items)
    rwa [alternating] at built
  · intro others distinct perm
    exact reordered others (Entries.filter_eq_of_perm distinct perm)
  · rw [collect_curly_items, Entries.ofPairs_eq_self (Entries.ofPairs_ascending _)]

/-- A vector as a key after a list that is equal to it, with another key between them. -/
def repeatedKeyItems : List Value :=
  [.list [.number 1], .nil, .keyword "a", .nil, .vector [.number 1], .boolean true]

/-- A list and a number as keys, which are not equal, in descending order. -/
def descendingItems : List Value :=
  [.list [.number 1], .nil, .number 1, .boolean true]

theorem collect_curly_builds_map_of_repeated_key :
    repeatedKeyItems.length % 2 = 0 ∧
      (∃ entries,
        collect .curly repeatedKeyItems = .ok (.map entries) ∧
          (.vector [.number 1], .boolean true) ∈ entries ∧
          collect .curly (Entries.items entries) = .ok (.map entries)) ∧
      descendingItems.length % 2 = 0 ∧
      ∃ entries,
        collect .curly descendingItems = .ok (.map entries) ∧
          collect .curly [.number 1, .boolean true, .list [.number 1], .nil] =
            .ok (.map entries) := by
  refine ⟨rfl, ?_, rfl, ?_⟩
  · obtain ⟨-, entries, built, -, -, -, last, -, -, again⟩ :=
      (collect_curly_builds_map repeatedKeyItems).2 rfl
    refine ⟨entries, built, (last _).2 ?_, again⟩
    exact ⟨[(.list [.number 1], .nil), (.keyword "a", .nil)], [], rfl, List.forall_mem_nil _⟩
  · obtain ⟨-, entries, built, -, -, -, -, reordered, permuted, -⟩ :=
      (collect_curly_builds_map descendingItems).2 rfl
    have distinct :
        (Entries.pairs descendingItems).Pairwise fun left right =>
          (left.1 == right.1) = false := by
      decide
    have swapped :
        (Entries.pairs descendingItems).Perm
          [(.number 1, .boolean true), (.list [.number 1], .nil)] :=
      .swap _ _ _
    exact ⟨entries, built, permuted _ distinct swapped⟩

end Form

end MiniLisp
