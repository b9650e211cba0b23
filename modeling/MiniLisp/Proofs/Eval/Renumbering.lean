import MiniLisp.Proofs.Eval.Renaming
import MiniLisp.Proofs.Eval.Repetition
import Mathlib.Data.Set.Operations

/-!
# Values under other numbers

This module shows how a change of the numbers of functions and frames acts on values.

A value names some functions and frames, those of its parts and of the bodies of its
closures included (`Value.NumbersIn`).  A change of numbers only matters where it
changes one of these (`Value.renumber_congr`), and two changes in a row are one
(`Value.renumber_renumber`).  A value whose numbers are those of a range of another
numbering can be numbered back (`Value.renumber_invFun`).
-/

namespace MiniLisp.Value

/-- The function, if the value is one, has a number of one range, and its frame of another. -/
def NumberIn (functions : Nat → Prop) (frames : FrameId → Prop) : Value → Prop
  | closure identity _ _ home =>
    functions identity ∧ ∀ frame, home = some frame → frames frame
  | native identity _ => functions identity
  | _ => True

/-- All functions in the value have numbers of one range, and their frames of another. -/
abbrev NumbersIn (functions : Nat → Prop) (frames : FrameId → Prop) (value : Value) : Prop :=
  value.Throughout (NumberIn functions frames)

section

variable
  {functions functions' : Nat → Prop}
  {frames frames' : FrameId → Prop}

theorem NumbersIn.imp
    {value : Value}
    (numbers : value.NumbersIn functions frames)
    (functionImplies : ∀ identity, functions identity → functions' identity)
    (frameImplies : ∀ frame, frames frame → frames' frame) :
    value.NumbersIn functions' frames' := by
  refine Throughout.mono numbers fun part holds => ?_
  cases part with
  | closure identity parameters body home =>
      exact ⟨functionImplies identity holds.1,
        fun frame isHome => frameImplies frame (holds.2 frame isHome)⟩
  | native identity routine => exact functionImplies identity holds
  | _ => trivial

/-- A value without functions has no numbers. -/
theorem numbersIn_of_no_function
    (functions : Nat → Prop)
    (frames : FrameId → Prop)
    {value : Value}
    (plain : value.everywhere (fun part => !part.isFunction) = true) :
    value.NumbersIn functions frames := by
  refine .of_no_function plain fun part notFunction => ?_
  cases part with
  | closure => cases notFunction
  | native => cases notFunction
  | _ => trivial

/-- A value is within a store if its numbers are those of functions and frames that were made. -/
theorem within_iff_numbersIn
    {store : Store}
    {value : Value} :
    value.Within store ↔ value.NumbersIn (· < store.functions) (· < store.nextFrame) := by
  constructor
  · refine fun within => Throughout.mono within fun part holds => ?_
    cases part with
    | closure => exact holds
    | native => exact holds
    | _ => trivial
  · refine fun numbers => Throughout.mono numbers fun part holds => ?_
    cases part with
    | closure => exact holds
    | native => exact holds
    | _ => trivial

end

theorem map_renumber_items
    (function : Nat → Nat)
    (frame : FrameId → FrameId)
    (items : List Value) :
    renumberItems function frame items = items.map (renumber function frame) := by
  induction items with
  | nil => rfl
  | cons item items ih => rw [renumberItems, ih, List.map_cons]

theorem map_renumber_entries
    (function : Nat → Nat)
    (frame : FrameId → FrameId)
    (entries : List (Value × Value)) :
    renumberEntries function frame entries =
      entries.map fun entry =>
        (entry.1.renumber function frame, entry.2.renumber function frame) := by
  induction entries with
  | nil => rfl
  | cons entry entries ih => rw [renumberEntries, ih, List.map_cons]

theorem items_renumberEntries
    (function : Nat → Nat)
    (frame : FrameId → FrameId)
    (entries : List (Value × Value)) :
    Entries.items (renumberEntries function frame entries) =
      (Entries.items entries).map (renumber function frame) := by
  induction entries with
  | nil => rfl
  | cons entry entries ih =>
      rw [renumberEntries, Entries.items, Entries.items, ih, List.map_cons, List.map_cons]

/-- The components of the renumbered value are those of the value, renumbered. -/
theorem components_renumber
    (function : Nat → Nat)
    (frame : FrameId → FrameId)
    (value : Value) :
    (value.renumber function frame).components =
      value.components.map (renumber function frame) := by
  cases value with
  | list items => exact map_renumber_items function frame items
  | vector items => exact map_renumber_items function frame items
  | map entries => exact items_renumberEntries function frame entries
  | _ => rfl

/-- The numbers of the renumbered value are those of the value, changed. -/
theorem numbersIn_renumber
    {functions : Nat → Prop}
    {frames : FrameId → Prop}
    {function : Nat → Nat}
    {frame : FrameId → FrameId}
    {value : Value}
    (numbers :
      value.NumbersIn (fun identity => functions (function identity))
        (fun home => frames (frame home))) :
    (value.renumber function frame).NumbersIn functions frames := by
  induction numbers with
  | @intro value here _ ih =>
      constructor
      · cases value with
        | closure =>
            refine ⟨here.1, fun renumbered isHome => ?_⟩
            obtain ⟨home, wasHome, rfl⟩ := Option.map_eq_some_iff.1 isHome
            exact here.2 home wasHome
        | native => exact here
        | _ => trivial
      · intro component member
        rw [components_renumber] at member
        obtain ⟨original, inside, rfl⟩ := List.mem_map.1 member
        exact ih original inside

theorem renumber_id (value : Value) :
    value.renumber id id = value := by
  induction value using induction_on_components with
  | step value ih =>
      cases value with
      | list items =>
          have same := (List.map_congr_left ih).trans (List.map_id' items)
          exact congrArg list ((map_renumber_items id id items).trans same)
      | vector items =>
          have same := (List.map_congr_left ih).trans (List.map_id' items)
          exact congrArg vector ((map_renumber_items id id items).trans same)
      | map entries =>
          have inEntries (entry : Value × Value) (member : entry ∈ entries) :
              (entry.1.renumber id id, entry.2.renumber id id) = entry := by
            rw [ih entry.1 (Entries.key_mem_items member),
              ih entry.2 (Entries.value_mem_items member)]
          have same := (List.map_congr_left inEntries).trans (List.map_id' entries)
          exact congrArg map ((map_renumber_entries id id entries).trans same)
      | closure identity parameters body home =>
          rw [renumber, ih body (List.mem_singleton_self body), Option.map_id]
          rfl
      | _ => rfl

/-- Two ways to change numbers twice are the same if they are for the numbers in the value. -/
theorem renumber_renumber_congr
    {early late early' late' : Nat → Nat}
    {earlyFrame lateFrame earlyFrame' lateFrame' : FrameId → FrameId}
    {value : Value}
    (agree :
      value.NumbersIn (fun identity => late (early identity) = late' (early' identity))
        (fun home => lateFrame (earlyFrame home) = lateFrame' (earlyFrame' home))) :
    (value.renumber early earlyFrame).renumber late lateFrame =
      (value.renumber early' earlyFrame').renumber late' lateFrame' := by
  induction agree with
  | @intro value here _ ih =>
      cases value with
      | list items =>
          simp only [renumber, map_renumber_items, List.map_map]
          exact congrArg list (List.map_congr_left ih)
      | vector items =>
          simp only [renumber, map_renumber_items, List.map_map]
          exact congrArg vector (List.map_congr_left ih)
      | map entries =>
          simp only [renumber, map_renumber_entries, List.map_map]
          refine congrArg map (List.map_congr_left fun entry member => ?_)
          exact Prod.ext (ih entry.1 (Entries.key_mem_items member))
            (ih entry.2 (Entries.value_mem_items member))
      | closure identity parameters body home =>
          obtain ⟨sameFunction, sameFrame⟩ := here
          have sameHome :
              (home.map earlyFrame).map lateFrame = (home.map earlyFrame').map lateFrame' := by
            rw [Option.map_map, Option.map_map]
            exact Option.map_congr sameFrame
          simp only [renumber, sameFunction, sameHome]
          rw [ih body (List.mem_singleton_self body)]
      | native identity routine => exact congrArg (native · routine) here
      | _ => rfl

/-- Two changes of numbers in a row are one. -/
theorem renumber_renumber
    (early late : Nat → Nat)
    (earlyFrame lateFrame : FrameId → FrameId)
    (value : Value) :
    (value.renumber early earlyFrame).renumber late lateFrame =
      value.renumber (late ∘ early) (lateFrame ∘ earlyFrame) := by
  rw [← renumber_id (value.renumber (late ∘ early) (lateFrame ∘ earlyFrame))]
  apply renumber_renumber_congr
  induction value using induction_on_components with
  | step value ih =>
      refine .intro ?_ ih
      cases value with
      | closure => exact ⟨rfl, fun _ _ => rfl⟩
      | native => rfl
      | _ => trivial

/-- A change of numbers matters only where it changes the numbers in the value. -/
theorem renumber_congr
    {function function' : Nat → Nat}
    {frame frame' : FrameId → FrameId}
    {value : Value}
    (agree :
      value.NumbersIn (fun identity => function identity = function' identity)
        (fun home => frame home = frame' home)) :
    value.renumber function frame = value.renumber function' frame' := by
  rw [← renumber_id (value.renumber function frame),
    ← renumber_id (value.renumber function' frame')]
  exact renumber_renumber_congr agree

/-- A value whose numbers are given by another numbering can be numbered back. -/
theorem renumber_invFun
    {function : Nat → Nat}
    {frame : FrameId → FrameId}
    {value : Value}
    (numbers : value.NumbersIn (· ∈ Set.range function) (· ∈ Set.range frame)) :
    (value.renumber (Function.invFun function) (Function.invFun frame)).renumber function frame =
      value := by
  rw [renumber_renumber]
  refine (renumber_congr (numbers.imp ?_ ?_)).trans (renumber_id value)
  · exact fun identity given => Function.invFun_eq given
  · exact fun home given => Function.invFun_eq given

/-- Where a pairing pairs frames with their other numbers, a value is like the renumbered one. -/
theorem alike_renumber
    {translation : Translation}
    (noRenaming : translation.name = id)
    {pairing : Pairing}
    {frame : FrameId → FrameId}
    {frames : FrameId → Prop}
    (paired : ∀ home, frames home → pairing home (frame home) Scope.shared)
    {names : String → Prop}
    (allNames : ∀ name, names name)
    {value : Value}
    (numbers : value.NumbersIn (fun _ => True) frames) :
    value.Alike translation pairing names (value.renumber translation.function frame) := by
  induction numbers generalizing names with
  | @intro value here _ ih =>
      have inParts (part : Value) (member : part ∈ value.parts) :
          part.Alike translation pairing names (part.renumber translation.function frame) :=
        ih part (mem_components_of_mem_parts member) allNames
      cases value with
      | symbol name =>
          refine alike_symbol_iff.2 ⟨allNames name, ?_⟩
          rw [noRenaming]
          rfl
      | list items =>
          refine alike_list_iff.2 ⟨_, rfl, ?_⟩
          rw [map_renumber_items, List.forall₂_map_right_iff]
          exact List.forall₂_same.2 inParts
      | vector items =>
          refine alike_vector_iff.2 ⟨_, rfl, ?_⟩
          rw [map_renumber_items, List.forall₂_map_right_iff]
          exact List.forall₂_same.2 inParts
      | map entries =>
          refine alike_map_iff.2 ⟨_, rfl, ?_⟩
          rw [map_renumber_entries, List.forall₂_map_right_iff]
          refine List.forall₂_same.2 fun entry member => ⟨?_, ?_⟩
          · exact inParts entry.1 (Entries.key_mem_items member)
          · exact inParts entry.2 (Entries.value_mem_items member)
      | closure identity parameters body home =>
          have homes : pairing.Homes home (home.map frame) Scope.shared := by
            cases home with
            | none => exact .homeless Scope.shared
            | some home => exact .paired (paired home (here.2 home rfl))
          refine alike_closure_iff.2
            ⟨body.renumber translation.function frame, _, Scope.shared, ?_, homes, ?_⟩
          · rw [noRenaming, parameters.rename_id, renumber]
          · exact ih body (List.mem_singleton_self body) fun _ => trivial
      | native => exact alike_native_iff.2 rfl
      | _ => rfl

end MiniLisp.Value
