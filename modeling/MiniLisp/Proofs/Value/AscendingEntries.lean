import MiniLisp.Proofs.Value.TotalOrder

/-!
# Ascending entries

This module shows that the entries of a map stand in strictly ascending order
of their keys, however the map is built, and that building a map from entries
which already ascend gives these entries back.

A value is ordered if the entries of every map in it ascend, at every depth.
Values that the reader makes are ordered; the reverse construction, from an
ordered value to its text and back, relies on it.
-/

namespace MiniLisp

namespace Entries

/-- The keys of the entries are strictly ascending. -/
def Ascending (entries : List (Value × Value)) : Prop :=
  entries.Pairwise fun left right => left.1.order right.1 = .lt

instance (entries : List (Value × Value)) : Decidable (Ascending entries) :=
  inferInstanceAs (Decidable (List.Pairwise _ entries))

/-- An entry after an insertion is the new one or an old one. -/
theorem mem_of_mem_insert
    {key value : Value}
    {entries : List (Value × Value)}
    {entry : Value × Value}
    (member : entry ∈ insert key value entries) :
    entry = (key, value) ∨ entry ∈ entries := by
  induction entries with
  | nil =>
      exact Or.inl (List.mem_singleton.1 member)
  | cons other entries ih =>
      unfold insert at member
      split at member
      · exact List.mem_cons.1 member
      · rcases List.mem_cons.1 member with new | old
        · exact Or.inl new
        · exact Or.inr (List.mem_cons_of_mem other old)
      · rcases List.mem_cons.1 member with first | later
        · exact Or.inr (first ▸ List.mem_cons_self)
        · rcases ih later with new | old
          · exact Or.inl new
          · exact Or.inr (List.mem_cons_of_mem other old)

/-- Insertion keeps entries ascending. -/
theorem Ascending.insert
    {entries : List (Value × Value)}
    (ascending : Ascending entries)
    (key value : Value) :
    Ascending (insert key value entries) := by
  induction entries with
  | nil =>
      exact List.pairwise_singleton _ _
  | cons other entries ih =>
      obtain ⟨otherKey, otherValue⟩ := other
      obtain ⟨above, rest⟩ := List.pairwise_cons.1 ascending
      unfold Entries.insert
      split
      · next less =>
          refine List.pairwise_cons.2 ⟨?_, ascending⟩
          intro entry member
          rcases List.mem_cons.1 member with rfl | later
          · exact less
          · exact Std.TransCmp.lt_trans less (above entry later)
      · next same =>
          refine List.pairwise_cons.2 ⟨?_, rest⟩
          intro entry member
          exact Std.TransCmp.lt_of_eq_of_lt same (above entry member)
      · next greater =>
          refine List.pairwise_cons.2 ⟨?_, ih rest⟩
          intro entry member
          rcases mem_of_mem_insert member with rfl | old
          · exact Std.OrientedCmp.lt_of_gt greater
          · exact above entry old

/-- Inserting a key above all others adds the entry at the end. -/
theorem insert_eq_append
    {key value : Value}
    {entries : List (Value × Value)}
    (below : ∀ entry ∈ entries, entry.1.order key = .lt) :
    insert key value entries = entries ++ [(key, value)] := by
  induction entries with
  | nil =>
      rfl
  | cons other entries ih =>
      obtain ⟨otherKey, otherValue⟩ := other
      have less : otherKey.order key = .lt := below _ List.mem_cons_self
      have greater : key.order otherKey = .gt := by
        rw [Value.order_swap otherKey key, less]
        rfl
      have rest := ih fun entry member => below entry (List.mem_cons_of_mem _ member)
      simp only [insert, greater, rest, List.cons_append]

private theorem foldl_insert_ascending
    {entries : List (Value × Value)}
    (ascending : Ascending entries)
    (pairs : List (Value × Value)) :
    Ascending
      (pairs.foldl (fun entries pair => insert pair.1 pair.2 entries) entries) := by
  induction pairs generalizing entries with
  | nil =>
      exact ascending
  | cons pair pairs ih =>
      exact ih (ascending.insert pair.1 pair.2)

/-- The entries of a map ascend, from whatever pairs it is built. -/
theorem ofPairs_ascending (pairs : List (Value × Value)) :
    Ascending (ofPairs pairs) :=
  foldl_insert_ascending List.Pairwise.nil pairs

private theorem mem_of_mem_foldl_insert
    {pairs entries : List (Value × Value)}
    {entry : Value × Value}
    (member :
      entry ∈ pairs.foldl (fun entries pair => insert pair.1 pair.2 entries) entries) :
    entry ∈ entries ∨ entry ∈ pairs := by
  induction pairs generalizing entries with
  | nil =>
      exact Or.inl member
  | cons pair pairs ih =>
      rcases ih member with inserted | later
      · rcases mem_of_mem_insert inserted with rfl | old
        · exact Or.inr List.mem_cons_self
        · exact Or.inl old
      · exact Or.inr (List.mem_cons_of_mem pair later)

/-- Every entry of a map is one of the pairs from which it is built. -/
theorem mem_of_mem_ofPairs
    {pairs : List (Value × Value)}
    {entry : Value × Value}
    (member : entry ∈ ofPairs pairs) :
    entry ∈ pairs := by
  rcases mem_of_mem_foldl_insert member with empty | given
  · cases empty
  · exact given

/-- What holds of all keys and values given to a map holds of the parts of the map. -/
theorem forall_items_ofPairs
    {property : Value → Prop}
    {pairs : List (Value × Value)}
    (given : ∀ pair ∈ pairs, property pair.1 ∧ property pair.2) :
    ∀ part ∈ items (ofPairs pairs), property part := by
  intro part member
  obtain ⟨entry, isEntry, isPart⟩ := mem_items_iff.1 member
  have ofEntry := given entry (mem_of_mem_ofPairs isEntry)
  rcases isPart with rfl | rfl
  · exact ofEntry.1
  · exact ofEntry.2

private theorem foldl_insert_eq_append
    (entries pairs : List (Value × Value))
    (ascending : Ascending (entries ++ pairs)) :
    pairs.foldl (fun entries pair => insert pair.1 pair.2 entries) entries =
      entries ++ pairs := by
  induction pairs generalizing entries with
  | nil =>
      simp
  | cons pair pairs ih =>
      have below : ∀ entry ∈ entries, entry.1.order pair.1 = .lt := by
        intro entry member
        exact (List.pairwise_append.1 ascending).2.2 entry member pair List.mem_cons_self
      rw [List.foldl_cons, insert_eq_append below]
      rw [ih (entries ++ [pair]) (by simpa using ascending)]
      simp

/-- A map that is built from ascending pairs has these pairs as its entries. -/
theorem ofPairs_eq_self
    {pairs : List (Value × Value)}
    (ascending : Ascending pairs) :
    ofPairs pairs = pairs :=
  foldl_insert_eq_append [] pairs ascending

/-- Items that alternate are the keys and values of their consecutive pairs. -/
theorem items_pairs
    {list : List Value}
    (even : list.length % 2 = 0) :
    items (pairs list) = list := by
  fun_induction pairs list with
  | case1 key value rest ih =>
      have evenRest : rest.length % 2 = 0 := by
        simp only [List.length_cons] at even
        omega
      rw [items, ih evenRest]
  | case2 list noPair =>
      cases list with
      | nil => rfl
      | cons key behind =>
          cases behind with
          | nil => cases even
          | cons value rest => exact absurd rfl (noPair key value rest)

/-- A map is built from keys and values as it is from their pairs. -/
theorem ofItems?_items_eq_ofPairs (pairs : List (Value × Value)) :
    ofItems? (items pairs) = some (ofPairs pairs) := by
  rw [ofItems?, length_items, Nat.mul_mod_right, pairs_items]
  rfl

/-- A map is built again from its own keys and values. -/
theorem ofItems?_items
    {entries : List (Value × Value)}
    (ascending : Ascending entries) :
    ofItems? (items entries) = some entries := by
  rw [ofItems?_items_eq_ofPairs, ofPairs_eq_self ascending]

private theorem mem_of_mem_pairs
    {list : List Value}
    {pair : Value × Value}
    (member : pair ∈ pairs list) :
    pair.1 ∈ list ∧ pair.2 ∈ list := by
  fun_induction pairs list with
  | case1 key value rest ih =>
      rcases List.mem_cons.1 member with rfl | later
      · simp
      · obtain ⟨keyMember, valueMember⟩ := ih later
        simp [keyMember, valueMember]
  | case2 =>
      cases member

/-- The keys and values of a map are among the items from which it is built. -/
theorem mem_of_mem_items_ofItems?
    {list : List Value}
    {entries : List (Value × Value)}
    {part : Value}
    (built : ofItems? list = some entries)
    (member : part ∈ items entries) :
    part ∈ list := by
  unfold ofItems? at built
  split at built
  · cases built
    obtain ⟨entry, entryMember, isPart⟩ := mem_items_iff.1 member
    have given := mem_of_mem_pairs (mem_of_mem_ofPairs entryMember)
    rcases isPart with rfl | rfl
    · exact given.1
    · exact given.2
  · cases built

/-- Entries that are built from items ascend. -/
theorem ofItems?_ascending
    {list : List Value}
    {entries : List (Value × Value)}
    (built : ofItems? list = some entries) :
    Ascending entries := by
  unfold ofItems? at built
  split at built
  · cases built
    exact ofPairs_ascending _
  · cases built

end Entries

namespace Value

/-- The entries of a map ascend; other values pass. -/
def hasAscendingEntries : Value → Bool
  | map entries => decide (Entries.Ascending entries)
  | _ => true

/-- The entries of every map in the value ascend, at every depth. -/
def isOrdered (value : Value) : Bool :=
  value.everywhere hasAscendingEntries

end Value

end MiniLisp
