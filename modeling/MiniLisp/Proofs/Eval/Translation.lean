import MiniLisp.Eval.SpecialForm
import MiniLisp.Proofs.Eval.Frames
import Mathlib.Data.List.Count
import Mathlib.Data.List.Forall2
import Mathlib.Order.Monotone.Basic

/-!
# Names of two runs

This module supplies what the names and the functions of one run are called in another
(`Translation`), and carries parameters, faults and bindings over.

A translation respects the names with a meaning of their own, so a list of names stands for
parameters in both runs or in neither (`Parameters.ofNames?_map`).  It is injective, so a
name is looked up where it was bound, although a name can be bound more than once
(`Bindings.optionRel_get?_ofPairs`).
-/

namespace MiniLisp

/-- What the names and the functions of one run are called in another. -/
structure Translation where
  name : String → String
  function : Nat → Nat
  name_injective : Function.Injective name
  ofName?_name : ∀ symbol, SpecialForm.ofName? (name symbol) = SpecialForm.ofName? symbol
  name_restMark : name Parameters.restMark = Parameters.restMark
  function_strictMono : StrictMono function

/-- Everything is called the same. -/
def Translation.same : Translation where
  name := id
  function := id
  name_injective := Function.injective_id
  ofName?_name := fun _ => rfl
  name_restMark := rfl
  function_strictMono := strictMono_id

/-! ## Parameters and faults -/

namespace Parameters

/-- The parameters with other names. -/
def rename (name : String → String) (parameters : Parameters) : Parameters :=
  ⟨parameters.positional.map name, parameters.rest.map name⟩

theorem rename_id (parameters : Parameters) :
    parameters.rename id = parameters := by
  rw [rename, List.map_id, Option.map_id_fun, id_eq]

theorem arity_rename
    (name : String → String)
    (parameters : Parameters) :
    (parameters.rename name).arity = parameters.arity := by
  rw [arity, arity, rename, List.length_map, Option.isSome_map]

/-- The mark of the rest parameter stands where it stood. -/
theorem ofNames?_map
    (translation : Translation)
    (names : List String) :
    ofNames? (names.map translation.name) =
      (ofNames? names).map (rename translation.name) := by
  have marks : (names.map translation.name).count restMark = names.count restMark := by
    have counted := List.count_map_of_injective names translation.name translation.name_injective
      restMark
    rw [translation.name_restMark] at counted
    exact counted
  have isMark (name : String) : translation.name name = restMark ↔ name = restMark := by
    constructor
    · intro same
      exact translation.name_injective (same.trans translation.name_restMark.symm)
    · rintro rfl
      exact translation.name_restMark
  unfold ofNames?
  rw [marks]
  split
  · rfl
  · rw [← List.map_reverse]
    cases names.reverse with
    | nil => rfl
    | cons last before =>
        cases before with
        | nil => rfl
        | cons mark before =>
            simp only [List.map_cons, isMark]
            split
            · simp [rename, List.map_reverse]
            · rfl

end Parameters

namespace Fault

/-- The fault under other names.  Only the fault of an unbound name shows a name. -/
def rename (name : String → String) : Fault → Fault
  | unbound symbol => unbound (name symbol)
  | fault => fault

/-- A fault shows no numbers. -/
theorem rename_id (fault : Fault) :
    fault.rename id = fault := by
  cases fault with
  | unbound name => rfl
  | _ => rfl

end Fault

/-! ## Results -/

/-- The same fault under the names of the second run, or results that are related. -/
inductive ResultsAgree
    {First Second : Type}
    (translation : Translation)
    (related : First → Second → Prop) :
    Except Fault First → Except Fault Second → Prop where
  | fault (fault : Fault) :
      ResultsAgree translation related (.error fault) (.error (fault.rename translation.name))
  | result
      {value : First}
      {other : Second}
      (holds : related value other) :
      ResultsAgree translation related (.ok value) (.ok other)

namespace ResultsAgree

variable
  {First Second First' Second' : Type}
  {translation : Translation}
  {related : First → Second → Prop}
  {result : Except Fault First}
  {other : Except Fault Second}

theorem map
    {related' : First' → Second' → Prop}
    {next : First → First'}
    {next' : Second → Second'}
    (agree : ResultsAgree translation related result other)
    (maps : ∀ value value', related value value' → related' (next value) (next' value')) :
    ResultsAgree translation related' (result.map next) (other.map next') := by
  cases agree with
  | fault fault => exact .fault fault
  | result holds => exact .result (maps _ _ holds)

theorem mono
    {weaker : First → Second → Prop}
    (agree : ResultsAgree translation related result other)
    (implies : ∀ value value', related value value' → weaker value value') :
    ResultsAgree translation weaker result other := by
  cases agree with
  | fault fault => exact .fault fault
  | result holds => exact .result (implies _ _ holds)

/-- Where everything is called the same, a result agrees with itself. -/
theorem same
    {related : First → First → Prop}
    {given : Except Fault First}
    (holds : ∀ value, given = .ok value → related value value) :
    ResultsAgree .same related given given := by
  cases given with
  | error fault =>
      have agree : ResultsAgree .same related (.error fault) (.error (fault.rename id)) :=
        .fault fault
      rwa [Fault.rename_id] at agree
  | ok value => exact .result (holds value rfl)

/-- Where everything is called the same, results that agree as equal are equal. -/
theorem eq_of_same
    {given other : Except Fault First}
    (agree : ResultsAgree .same Eq given other) :
    other = given := by
  cases agree with
  | fault fault => exact congrArg Except.error fault.rename_id
  | result same => exact congrArg Except.ok same.symm

end ResultsAgree

/-! ## Entries and bindings -/

/-- The keys and the values of two entries are related. -/
def EntriesRelated
    (related : Value → Value → Prop)
    (entry other : Value × Value) :
    Prop :=
  related entry.1 other.1 ∧ related entry.2 other.2

namespace Parameters

/-- The same name, as it is called in both runs, and values that are related. -/
def BindingsAgree
    (translation : Translation)
    (related : Value → Value → Prop)
    (binding other : String × Value) :
    Prop :=
  other.1 = translation.name binding.1 ∧ related binding.2 other.2

variable
  {translation : Translation}
  {related : Value → Value → Prop}

theorem forall₂_zip
    (translation : Translation)
    (names : List String)
    {arguments others : List Value}
    (same : List.Forall₂ related arguments others) :
    List.Forall₂ (BindingsAgree translation related)
      (names.zip arguments) ((names.map translation.name).zip others) := by
  induction same generalizing names with
  | nil =>
      rw [List.zip_nil_right, List.zip_nil_right]
      exact .nil
  | cons head tail ih =>
      cases names with
      | nil => exact .nil
      | cons name names => exact .cons ⟨rfl, head⟩ (ih names)

/-- Parameters bind related values to arguments that are related. -/
theorem forall₂_bind
    (lists :
      ∀ {items others}, List.Forall₂ related items others → related (.list items) (.list others))
    (parameters : Parameters)
    {arguments others : List Value}
    (same : List.Forall₂ related arguments others) :
    List.Forall₂ (BindingsAgree translation related)
      (parameters.bind arguments) ((parameters.rename translation.name).bind others) := by
  unfold bind
  apply List.rel_append (forall₂_zip translation parameters.positional same)
  rw [rename, List.length_map]
  cases parameters.rest with
  | none => exact .nil
  | some name => exact .cons ⟨rfl, lists (List.forall₂_drop _ same)⟩ .nil

end Parameters

theorem Bindings.optionRel_get?_ofPairs
    {translation : Translation}
    {related : Value → Value → Prop}
    {pairs others : List (String × Value)}
    (same : List.Forall₂ (Parameters.BindingsAgree translation related) pairs others)
    (name : String) :
    Option.Rel related
      ((ofPairs pairs).get? name) ((ofPairs others).get? (translation.name name)) := by
  rw [get?_ofPairs, get?_ofPairs]
  have reversed := List.rel_reverse same
  generalize pairs.reverse = backward at reversed
  generalize others.reverse = backward' at reversed
  induction reversed with
  | nil => exact .none
  | @cons binding other _ _ head tail ih =>
      obtain ⟨first, value⟩ := binding
      obtain ⟨_, other⟩ := other
      obtain ⟨rfl, holds⟩ := head
      rw [List.lookup_cons, List.lookup_cons]
      by_cases asked : name = first
      · rw [asked, beq_self_eq_true, beq_self_eq_true]
        exact .some holds
      · rw [beq_eq_false_iff_ne.2 asked,
          beq_eq_false_iff_ne.2 fun equal => asked (translation.name_injective equal)]
        exact ih

end MiniLisp
