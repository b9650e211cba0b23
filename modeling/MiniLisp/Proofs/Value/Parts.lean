import MiniLisp.Value.Entries

/-!
# Parts of values

This module supplies the immediate parts of a value: the items of a sequence,
and the keys and values of a map.  A closure has no parts, because its body is
no value that a program can take out of it.

A part is smaller than the value that it belongs to, so a property holds of all
values if it passes from the parts to the whole (`induction_on_parts`).  A test
holds everywhere in a value if the value and all parts at every depth pass it.
-/

namespace MiniLisp

namespace Entries

/-- The keys and values of entries are those of the single entries. -/
theorem mem_items_iff
    {entries : List (Value × Value)}
    {value : Value} :
    value ∈ items entries ↔
      ∃ entry ∈ entries, value = entry.1 ∨ value = entry.2 := by
  induction entries with
  | nil =>
      simp [items]
  | cons entry entries ih =>
      obtain ⟨key, content⟩ := entry
      simp [items, ih, or_assoc]

theorem key_mem_items
    {entries : List (Value × Value)}
    {entry : Value × Value}
    (member : entry ∈ entries) :
    entry.1 ∈ items entries :=
  mem_items_iff.2 ⟨entry, member, Or.inl rfl⟩

theorem value_mem_items
    {entries : List (Value × Value)}
    {entry : Value × Value}
    (member : entry ∈ entries) :
    entry.2 ∈ items entries :=
  mem_items_iff.2 ⟨entry, member, Or.inr rfl⟩

/-- The keys and values of entries are twice as many as the entries. -/
@[simp]
theorem length_items (entries : List (Value × Value)) :
    (items entries).length = 2 * entries.length := by
  induction entries with
  | nil =>
      rfl
  | cons entry entries ih =>
      simp [items, ih]
      omega

end Entries

namespace Value

/-- The items of a sequence, and the keys and values of a map, in order. -/
def parts : Value → List Value
  | list items => items
  | vector items => items
  | map entries => Entries.items entries
  | _ => []

@[simp]
theorem parts_list (items : List Value) : (list items).parts = items := rfl

@[simp]
theorem parts_vector (items : List Value) : (vector items).parts = items := rfl

@[simp]
theorem parts_map (entries : List (Value × Value)) :
    (map entries).parts = Entries.items entries := rfl

theorem mem_parts_of_items?
    {value item : Value}
    {items : List Value}
    (sequence : value.items? = some items)
    (member : item ∈ items) :
    item ∈ value.parts := by
  cases value with
  | list => cases sequence; exact member
  | vector => cases sequence; exact member
  | _ => cases sequence

/-- A part is smaller than the whole. -/
theorem sizeOf_lt_of_mem_parts
    {part value : Value}
    (member : part ∈ value.parts) :
    sizeOf part < sizeOf value := by
  cases value with
  | list items =>
      rw [parts_list] at member
      have smaller := List.sizeOf_lt_of_mem member
      simp only [list.sizeOf_spec]
      omega
  | vector items =>
      rw [parts_vector] at member
      have smaller := List.sizeOf_lt_of_mem member
      simp only [vector.sizeOf_spec]
      omega
  | map entries =>
      obtain ⟨entry, entryMember, isPart⟩ := Entries.mem_items_iff.1 member
      have smaller := List.sizeOf_lt_of_mem entryMember
      obtain ⟨key, content⟩ := entry
      simp only [map.sizeOf_spec]
      simp only [Prod.mk.sizeOf_spec] at smaller
      rcases isPart with rfl | rfl <;> omega
  | _ =>
      cases member

/-- What passes from the parts to the whole holds of every value. -/
@[elab_as_elim]
theorem induction_on_parts
    {motive : Value → Prop}
    (value : Value)
    (step :
      ∀ value : Value,
        (∀ part ∈ value.parts, motive part) → motive value) :
    motive value := by
  apply step
  intro part member
  have smaller := sizeOf_lt_of_mem_parts member
  exact induction_on_parts part step
termination_by sizeOf value

mutual

/-- The value and all parts at every depth pass a test. -/
def everywhere (test : Value → Bool) : Value → Bool
  | list items => test (list items) && everywhereItems test items
  | vector items => test (vector items) && everywhereItems test items
  | map entries => test (map entries) && everywhereEntries test entries
  | value => test value

/-- All items and their parts pass a test. -/
def everywhereItems (test : Value → Bool) : List Value → Bool
  | [] => true
  | item :: items => everywhere test item && everywhereItems test items

/-- All keys and values and their parts pass a test. -/
def everywhereEntries (test : Value → Bool) : List (Value × Value) → Bool
  | [] => true
  | (key, value) :: entries =>
    everywhere test key && everywhere test value && everywhereEntries test entries

end

private theorem everywhereItems_iff
    {test : Value → Bool}
    {items : List Value} :
    everywhereItems test items = true ↔
      ∀ item ∈ items, everywhere test item = true := by
  induction items with
  | nil =>
      simp [everywhereItems]
  | cons item items ih =>
      simp [everywhereItems, ih]

private theorem everywhereEntries_iff
    {test : Value → Bool}
    {entries : List (Value × Value)} :
    everywhereEntries test entries = true ↔
      ∀ part ∈ Entries.items entries, everywhere test part = true := by
  induction entries with
  | nil =>
      simp [everywhereEntries, Entries.items]
  | cons entry entries ih =>
      simp [everywhereEntries, Entries.items, ih, and_assoc]

/-- A test holds everywhere in a value if it holds there and everywhere in the parts. -/
theorem everywhere_iff
    {test : Value → Bool}
    {value : Value} :
    everywhere test value = true ↔
      test value = true ∧ ∀ part ∈ value.parts, everywhere test part = true := by
  cases value with
  | list items =>
      simp [everywhere, everywhereItems_iff]
  | vector items =>
      simp [everywhere, everywhereItems_iff]
  | map entries =>
      simp [everywhere, everywhereEntries_iff]
  | _ =>
      simp [everywhere, parts]

theorem everywhere_mono
    {test weaker : Value → Bool}
    (implies : ∀ value, test value = true → weaker value = true)
    {value : Value}
    (holds : value.everywhere test = true) :
    value.everywhere weaker = true := by
  induction value using induction_on_parts with
  | step value ih =>
      rcases everywhere_iff.1 holds with ⟨here, inParts⟩
      refine everywhere_iff.2 ⟨implies value here, ?_⟩
      exact fun part member => ih part member (inParts part member)

/-- A property holds of the value and of its parts, at every depth. -/
inductive EachPart (property : Value → Prop) : Value → Prop where
  | intro
      {value : Value}
      (here : property value)
      (inParts : ∀ part ∈ value.parts, EachPart property part) :
      EachPart property value

namespace EachPart

variable
  {property : Value → Prop}
  {value : Value}

theorem leaf
    (here : property value)
    (noParts : value.parts = []) :
    value.EachPart property := by
  refine .intro here fun part member => ?_
  rw [noParts] at member
  exact absurd member List.not_mem_nil

theorem here
    (holds : value.EachPart property) :
    property value := by
  cases holds with
  | intro here inParts => exact here

theorem mono
    {weaker : Value → Prop}
    (holds : value.EachPart property)
    (implies : ∀ value, property value → weaker value) :
    value.EachPart weaker := by
  induction holds with
  | intro here inParts ih => exact .intro (implies _ here) ih

end EachPart

end Value

end MiniLisp
