import MiniLisp.Proofs.Eval.Invariant
import MiniLisp.Proofs.Value.Components
import MiniLisp.Session

/-!
# Reachable stores

This module supplies the stores that can come about, and shows what all of them
have in common.

A store is reachable if it results from the empty store by opening and binding
frames, by defining the builtin functions, and by evaluating forms and applying
functions, whether this ends with a value or with a fault (`Store.Reachable`).
Values take part only if their functions and frames have been made in the store
(`Value.Within`).  Every value that is bound in a reachable store is within the
store, and every parent is older than its children (`Store.Reachable.holds`).
-/

namespace MiniLisp

namespace Value

/-- The function, if the value is one, and its frame, if it has one, were made in the store. -/
def MadeIn (store : Store) : Value → Prop
  | closure identity _ _ home =>
    identity < store.functions ∧ ∀ frame, home = some frame → frame < store.nextFrame
  | native identity _ => identity < store.functions
  | _ => True

/-- All functions in the value and their frames have been made in the store. -/
def Within (store : Store) (value : Value) : Prop :=
  value.Throughout (MadeIn store)

theorem madeIn_of_not_function
    (store : Store)
    {value : Value}
    (plain : value.isFunction = false) :
    value.MadeIn store := by
  cases value with
  | closure => cases plain
  | native => cases plain
  | _ => trivial

/-- Values without functions are within every store. -/
theorem within_of_no_function
    (store : Store)
    {value : Value}
    (plain : value.everywhere (fun part => !part.isFunction) = true) :
    value.Within store :=
  .of_no_function plain fun _ => madeIn_of_not_function store

theorem Within.mono
    {before after : Store}
    {value : Value}
    (within : value.Within before)
    (precedes : before.Precedes after) :
    value.Within after := by
  refine Throughout.mono within fun part made => ?_
  cases part with
  | closure =>
      exact ⟨Nat.lt_of_lt_of_le made.1 precedes.functions,
        fun frame isHome => Nat.lt_of_lt_of_le (made.2 frame isHome) precedes.frames⟩
  | native => exact Nat.lt_of_lt_of_le made precedes.functions
  | _ => trivial

/-- A collection is within the store if its parts are. -/
theorem within_of_parts
    {store : Store}
    {value : Value}
    (plain : value.isFunction = false)
    (inParts : ∀ part ∈ value.parts, part.Within store) :
    value.Within store := by
  refine Throughout.intro (madeIn_of_not_function store plain) fun component member => ?_
  apply inParts component
  cases value with
  | closure => cases plain
  | _ => exact member

theorem within_of_leaf
    {store : Store}
    {value : Value}
    (plain : value.isFunction = false)
    (noParts : value.parts = []) :
    value.Within store := by
  refine within_of_parts plain fun part member => ?_
  rw [noParts] at member
  exact absurd member List.not_mem_nil

theorem within_native
    {store : Store}
    {identity : Nat}
    (made : identity < store.functions)
    (routine : Routine) :
    (native identity routine).Within store :=
  .intro made fun _ member => absurd member List.not_mem_nil

end Value

namespace Invariant

/-- Forms and values are within the store. -/
def within : Invariant where
  form := Value.Within
  value := Value.Within
  form_mono := fun precedes good => good.mono precedes
  value_mono := fun precedes good => good.mono precedes
  form_part := fun good member => good.parts member
  value_constant := fun good _ => good
  value_nil := fun _ => Value.within_of_leaf rfl rfl
  value_boolean := fun _ _ => Value.within_of_leaf rfl rfl
  value_number := fun _ _ => Value.within_of_leaf rfl rfl
  value_list := fun good => Value.within_of_parts rfl good
  value_vector := fun good => Value.within_of_parts rfl good
  value_map := fun good => Value.within_of_parts rfl (Entries.forall_items_ofPairs good)
  value_raw := fun _ => Value.within_of_leaf rfl rfl
  value_escaped := fun _ => Value.within_of_leaf rfl rfl
  value_closure := by
    intro store names parameters body home _ goodBody made
    refine Value.Throughout.intro ⟨Nat.lt_succ_self store.functions, ?_⟩ ?_
    · rintro frame ⟨⟩
      exact made
    · intro component member
      cases List.mem_singleton.1 member
      exact goodBody.mono (.addFunction store)
  closure_body := fun good => ⟨good.body, good.here.2 _ rfl⟩

end Invariant

namespace Store

/-- The store with a builtin function made and bound in a frame. -/
def defineBuiltin (store : Store) (frame : FrameId) (builtin : Builtin) : Store :=
  (store.define frame builtin.name (.native store.functions builtin)).addFunction

theorem defineBuiltins_eq_foldl
    (store : Store)
    (frame : FrameId) :
    store.defineBuiltins frame =
      Builtin.all.foldl (fun store builtin => store.defineBuiltin frame builtin) store := rfl

/-- What one builtin function preserves is preserved by all of them. -/
theorem defineBuiltins_induction
    {holds : Store → Prop}
    {store : Store}
    (start : holds store)
    (frame : FrameId)
    (step : ∀ store builtin, holds store → holds (store.defineBuiltin frame builtin)) :
    holds (store.defineBuiltins frame) := by
  rw [defineBuiltins_eq_foldl]
  induction Builtin.all generalizing store with
  | nil => exact start
  | cons builtin builtins ih => exact ih (step store builtin start)

@[simp]
theorem nextFrame_defineBuiltin
    (store : Store)
    (frame : FrameId)
    (builtin : Builtin) :
    (store.defineBuiltin frame builtin).nextFrame = store.nextFrame :=
  nextFrame_define store frame builtin.name (.native store.functions builtin)

/-- Builtin functions are defined without a new frame. -/
@[simp]
theorem nextFrame_defineBuiltins
    (store : Store)
    (frame : FrameId) :
    (store.defineBuiltins frame).nextFrame = store.nextFrame := by
  let same (later : Store) : Prop := later.nextFrame = store.nextFrame
  have start : same store := rfl
  exact defineBuiltins_induction start frame fun later builtin isSame =>
    (nextFrame_defineBuiltin later frame builtin).trans isSame

end Store

namespace Invariant.Holds

variable
  {invariant : Invariant}
  {store : Store}

theorem empty (invariant : Invariant) : invariant.Holds Store.empty where
  bound := fun found => by cases found
  parent := fun found => by cases found

/-- A new frame binds nothing, so only its parent matters. -/
theorem addEmpty
    (holds : invariant.Holds store)
    {parent : Option FrameId}
    (older : ∀ {frame}, parent = some frame → frame < store.nextFrame) :
    invariant.Holds (store.addFrame ⟨[], parent⟩) := by
  apply holds.addFrame ?_ older
  intro name value bound
  rw [Bindings.get?_nil] at bound
  cases bound

theorem defineBuiltin
    (holds : invariant.Holds store)
    (frame : FrameId)
    {builtin : Builtin}
    (good : invariant.value store.addFunction (.native store.functions builtin)) :
    invariant.Holds (store.defineBuiltin frame builtin) := by
  have made : invariant.Holds store.addFunction :=
    holds.of_frames_eq (.addFunction store) rfl
  exact made.define frame builtin.name good

theorem defineBuiltins
    (holds : invariant.Holds store)
    (frame : FrameId)
    (good :
      ∀ (store : Store) (builtin : Builtin),
        invariant.value store.addFunction (.native store.functions builtin)) :
    invariant.Holds (store.defineBuiltins frame) := by
  apply Store.defineBuiltins_induction holds frame
  intro store builtin holds
  exact holds.defineBuiltin frame (good store builtin)

/-- An invariant that new builtin functions have holds in a session that is entered. -/
theorem enter
    (holds : invariant.Holds store)
    (good :
      ∀ (store : Store) (builtin : Builtin),
        invariant.value store.addFunction (.native store.functions builtin)) :
    invariant.Holds (Session.enter store) := by
  have added : invariant.Holds (store.addFrame ⟨[], none⟩) := holds.addEmpty nofun
  exact added.defineBuiltins store.nextFrame good

end Invariant.Holds

/-! ## Steps -/

namespace Store

/-- One thing that is done with a store. -/
inductive Step : Store → Store → Prop where
  | root (store : Store) : Step store (store.addFrame ⟨[], none⟩)
  | child
      {store : Store}
      {parent : FrameId}
      (made : parent < store.nextFrame) :
      Step store (store.addFrame ⟨[], some parent⟩)
  | define
      {store : Store}
      (frame : FrameId)
      (name : String)
      {value : Value}
      (within : value.Within store) :
      Step store (store.define frame name value)
  | defineBuiltin
      (store : Store)
      (frame : FrameId)
      (builtin : Builtin) :
      Step store (store.defineBuiltin frame builtin)
  | eval
      {depth : Nat}
      {store : Store}
      {frame : FrameId}
      {form : Value}
      {outcome : Except Fault Value}
      {after : Store}
      (made : frame < store.nextFrame)
      (within : form.Within store)
      (ends : (eval depth frame form).outcome store = some (outcome, after)) :
      Step store after
  | apply
      {depth : Nat}
      {store : Store}
      {function : Value}
      {arguments : List Value}
      {outcome : Except Fault Value}
      {after : Store}
      (functionWithin : function.Within store)
      (argumentsWithin : ∀ argument ∈ arguments, argument.Within store)
      (ends :
        (Call.apply (eval depth) function arguments).outcome store = some (outcome, after)) :
      Step store after
  | forgetOutput (store : Store) : Step store store.forgetOutput

/-- The stores that result from the empty one, step by step. -/
inductive Reachable : Store → Prop where
  | empty : Reachable Store.empty
  | step
      {before after : Store}
      (reachable : before.Reachable)
      (step : before.Step after) :
      Reachable after

/-- Each step leaves all bound values within the store. -/
theorem Step.holds
    {before after : Store}
    (step : before.Step after)
    (holds : Invariant.within.Holds before) :
    Invariant.within.Holds after := by
  cases step with
  | root => exact holds.addEmpty nofun
  | child made =>
      apply holds.addEmpty
      rintro parent ⟨⟩
      exact made
  | define frame name within => exact holds.define frame name within
  | defineBuiltin =>
      apply holds.defineBuiltin
      exact Value.within_native (Nat.lt_succ_self before.functions) _
  | eval made within ends =>
      exact (Invariant.maintains_eval _ _ _ _ _ made within holds _ _ ends).2.1.holds
  | @apply depth store function arguments outcome after functionWithin argumentsWithin ends =>
      have maintained :=
        Invariant.maintains_apply (Invariant.maintains_eval .within depth) functionWithin
          argumentsWithin
      exact (maintained holds _ _ ends).2.1.holds
  | forgetOutput =>
      exact holds.of_frames_eq ⟨Nat.le_refl _, Nat.le_refl _⟩ rfl

namespace Reachable

/-- In a reachable store all bound values are within the store. -/
theorem holds
    {store : Store}
    (reachable : store.Reachable) :
    Invariant.within.Holds store := by
  induction reachable with
  | empty => exact .empty _
  | step _ step ih => exact step.holds ih

theorem defineBuiltins
    {store : Store}
    (reachable : store.Reachable)
    (frame : FrameId) :
    (store.defineBuiltins frame).Reachable := by
  apply defineBuiltins_induction reachable frame
  intro store builtin reachable
  exact reachable.step (.defineBuiltin store frame builtin)

/-- A session is entered in a few steps. -/
theorem enter
    {store : Store}
    (reachable : store.Reachable) :
    (Session.enter store).Reachable :=
  (reachable.step (.root store)).defineBuiltins store.nextFrame

end Reachable

end Store

end MiniLisp
