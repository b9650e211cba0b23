import MiniLisp.Proofs.Value.TotalOrder
import MiniLisp.Value.Fingerprint

/-!
# Fingerprints decide equality

This module shows that two values have the same fingerprint exactly if they are equal in
the language (`Value.fingerprint_eq_iff_equal`).

The marks of a value tell where they end: if the marks of two values, each followed by
whatever marks, make the same sequence, then the values are equal and the same marks follow
(`Value.map_fingerprint_append_eq_iff`).  The rank comes first and says what mark is next,
and a collection gives its size before its parts.  For that reason it does not matter if
marks of different kinds are written alike, as long as those of one kind are told apart.
-/

namespace MiniLisp

namespace Value

/--
A way to write marks in which all contents of one kind of marks are told apart.  Marks of
different kinds may be written alike.
-/
structure Mark.IsFaithful {Written : Type} (write : Mark → Written) : Prop where
  /-- The ranks that values have are told apart. -/
  rank :
    ∀ left right : Value,
      write (.rank left.rank) = write (.rank right.rank) → left.rank = right.rank
  truth : Function.Injective fun truth => write (.truth truth)
  integer : Function.Injective fun integer => write (.integer integer)
  text : Function.Injective fun text => write (.text text)
  name : Function.Injective fun name => write (.name name)
  size : Function.Injective fun size => write (.size size)
  identity : Function.Injective fun identity => write (.identity identity)

/-- Marks that are written as they are. -/
theorem Mark.isFaithful_id : Mark.IsFaithful id where
  rank := fun _ _ same => Mark.rank.inj same
  truth := fun _ _ same => Mark.truth.inj same
  integer := fun _ _ same => Mark.integer.inj same
  text := fun _ _ same => Mark.text.inj same
  name := fun _ _ same => Mark.name.inj same
  size := fun _ _ same => Mark.size.inj same
  identity := fun _ _ same => Mark.identity.inj same

/-! ## The marks of collections -/

/-- The marks of entries are those of the sequence of their keys and values. -/
theorem fingerprintEntries_eq_fingerprintItems (entries : List (Value × Value)) :
    fingerprintEntries entries = fingerprintItems (Entries.items entries) := by
  induction entries with
  | nil => rfl
  | cons entry entries ih =>
      simp only [fingerprintEntries, Entries.items, fingerprintItems, ih, List.append_assoc]

/-- The marks of a value start with its rank. -/
theorem exists_fingerprint_eq_cons (value : Value) :
    ∃ marks, value.fingerprint = .rank value.rank :: marks := by
  cases value <;> exact ⟨_, rfl⟩

/-- A collection gives its rank and its size, and then its parts. -/
theorem fingerprint_of_collection
    {value : Value}
    (collection : value.isCollection = true) :
    value.fingerprint =
      .rank value.rank :: .size (value.size?.getD 0) :: fingerprintItems value.parts := by
  cases value with
  | list items => rfl
  | vector items => rfl
  | map entries =>
      rw [parts_map, ← fingerprintEntries_eq_fingerprintItems]
      rfl
  | _ => cases collection

/-- Collections of the same rank have the same size exactly if they have as many parts. -/
theorem size?_eq_iff_length_parts
    {left right : Value}
    (collection : left.isCollection = true)
    (sameRank : left.rank = right.rank) :
    left.size?.getD 0 = right.size?.getD 0 ↔ left.parts.length = right.parts.length := by
  cases left <;> cases collection <;> cases right <;>
    first
    | exact Iff.rfl
    | (cases sameRank; done)
    | simp only [size?, Option.getD_some, parts_map, Entries.length_items]
  omega

theorem length_eq_of_equalItems
    {lefts rights : List Value}
    (equal : equalItems lefts rights = true) :
    lefts.length = rights.length := by
  induction lefts generalizing rights with
  | nil =>
      cases rights with
      | nil => rfl
      | cons right rights => cases equal
  | cons left lefts ih =>
      cases rights with
      | nil => cases equal
      | cons right rights =>
          rw [equalItems, Bool.and_eq_true] at equal
          rw [List.length_cons, List.length_cons, ih equal.2]

/-! ## Where the marks of a value end -/

variable
  {Written : Type}
  {write : Mark → Written}

private theorem map_fingerprintItems_append_eq_iff_of_each
    (lefts rights : List Value)
    (sameLength : lefts.length = rights.length)
    (each :
      ∀ left ∈ lefts, ∀ right : Value, ∀ tail others : List Written,
        left.fingerprint.map write ++ tail = right.fingerprint.map write ++ others ↔
          left.equal right = true ∧ tail = others)
    (tail others : List Written) :
    (fingerprintItems lefts).map write ++ tail =
        (fingerprintItems rights).map write ++ others ↔
      equalItems lefts rights = true ∧ tail = others := by
  induction lefts generalizing rights with
  | nil =>
      cases rights with
      | nil => simp [fingerprintItems, equalItems]
      | cons right rights => cases sameLength
  | cons left lefts ih =>
      cases rights with
      | nil => cases sameLength
      | cons right rights =>
          have heads := each left List.mem_cons_self right
          have tails :=
            ih rights (Nat.succ.inj sameLength)
              fun item member => each item (List.mem_cons_of_mem left member)
          simp only [fingerprintItems, equalItems, List.map_append, List.append_assoc, heads,
            tails, Bool.and_eq_true, and_assoc]

/--
The marks of two values, each followed by any marks, are the same sequence exactly if the
values are equal and the same marks follow.
-/
theorem map_fingerprint_append_eq_iff
    (faithful : Mark.IsFaithful write)
    (left right : Value)
    (tail others : List Written) :
    left.fingerprint.map write ++ tail = right.fingerprint.map write ++ others ↔
      left.equal right = true ∧ tail = others := by
  induction left using induction_on_parts generalizing right tail others with
  | step left ih =>
      by_cases sameRank : left.rank = right.rank
      · by_cases collection : left.isCollection = true
        · have other := isCollection_of_rank_eq collection sameRank
          have sizes := size?_eq_iff_length_parts collection sameRank
          rw [equal_of_collections collection sameRank, fingerprint_of_collection collection,
            fingerprint_of_collection other, sameRank]
          simp only [List.map_cons, List.cons_append, List.cons.injEq, true_and,
            faithful.size.eq_iff, sizes]
          -- The size is read before the parts, so that the parts can be read one by one.
          constructor
          · rintro ⟨sameLength, rest⟩
            exact (map_fingerprintItems_append_eq_iff_of_each _ _ sameLength ih _ _).1 rest
          · rintro ⟨equal, rest⟩
            have sameLength := length_eq_of_equalItems equal
            exact ⟨sameLength,
              (map_fingerprintItems_append_eq_iff_of_each _ _ sameLength ih _ _).2 ⟨equal, rest⟩⟩
        · cases left <;> cases right <;>
            first
            | exact absurd rfl collection
            | (cases sameRank; done)
            | simp [fingerprint, equal, faithful.truth.eq_iff, faithful.integer.eq_iff,
                faithful.text.eq_iff, faithful.name.eq_iff, faithful.identity.eq_iff, rank]
      · obtain ⟨marks, here⟩ := exists_fingerprint_eq_cons left
        obtain ⟨otherMarks, there⟩ := exists_fingerprint_eq_cons right
        rw [here, there, equal_of_rank_ne sameRank]
        refine iff_of_false ?_ fun both => absurd both.1 Bool.false_ne_true
        intro same
        exact sameRank (faithful.rank left right (List.cons.inj same).1)

/-! ## Fingerprints and equality -/

theorem map_fingerprint_eq_iff
    (faithful : Mark.IsFaithful write)
    (left right : Value) :
    left.fingerprint.map write = right.fingerprint.map write ↔ (left == right) = true := by
  have whole := map_fingerprint_append_eq_iff faithful left right [] []
  rw [List.append_nil, List.append_nil, and_iff_left rfl] at whole
  exact whole

/--
Two values have the same fingerprint exactly if they are equal in the language.  This
remains so however marks are written, even if marks of different kinds are written alike,
as long as the contents of each kind are told apart.
-/
theorem fingerprint_eq_iff_equal (left right : Value) :
    (left.fingerprint = right.fingerprint ↔ (left == right) = true) ∧
      ∀ {Written : Type} (write : Mark → Written),
        Mark.IsFaithful write →
          (left.fingerprint.map write = right.fingerprint.map write ↔
            (left == right) = true) := by
  constructor
  · have plain := map_fingerprint_eq_iff Mark.isFaithful_id left right
    rw [List.map_id, List.map_id] at plain
    exact plain
  · intro Written write faithful
    exact map_fingerprint_eq_iff faithful left right

/-- Marks as bare numbers and texts, without what they stand for. -/
def bareMark : Mark → Int ⊕ String
  | .rank rank => .inl rank
  | .truth truth => .inl truth.toInt
  | .integer integer => .inl integer.toInt
  | .text text => .inr text
  | .name name => .inr name
  | .size size => .inl size
  | .identity identity => .inl identity

theorem isFaithful_bareMark : Mark.IsFaithful bareMark where
  rank := fun _ _ same => Int.ofNat.inj (Sum.inl.inj same)
  truth := by
    intro truth other same
    cases truth <;> cases other <;>
      first
      | rfl
      | cases same
  integer := fun _ _ same => Int64.toInt.inj (Sum.inl.inj same)
  text := fun _ _ same => Sum.inr.inj same
  name := fun _ _ same => Sum.inr.inj same
  size := fun _ _ same => Int.ofNat.inj (Sum.inl.inj same)
  identity := fun _ _ same => Int.ofNat.inj (Sum.inl.inj same)

/-- A map with a vector as its key, and the same map with a list as its key. -/
theorem fingerprint_eq_iff_equal_of_bareMark :
    Mark.IsFaithful bareMark ∧
      (map [(vector [number 1], list [])]).fingerprint.map bareMark =
        (map [(list [number 1], vector [])]).fingerprint.map bareMark ∧
      (list [vector [number 1], number 1]).fingerprint.map bareMark ≠
        (list [vector [number 1, number 1]]).fingerprint.map bareMark := by
  refine ⟨isFaithful_bareMark, ?_, ?_⟩
  · exact ((fingerprint_eq_iff_equal _ _).2 bareMark isFaithful_bareMark).2 (by decide)
  · intro same
    have equal := ((fingerprint_eq_iff_equal _ _).2 bareMark isFaithful_bareMark).1 same
    exact absurd equal (by decide)

end Value

end MiniLisp
