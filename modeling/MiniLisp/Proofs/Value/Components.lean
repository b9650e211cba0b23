import MiniLisp.Proofs.Value.Parts

/-!
# Components of values

This module supplies the values that a value is made of, inside and out: its
parts, and for a closure its body.  A program cannot take the body out of a
closure, but a call evaluates it, so what evaluation is to respect has to hold
of bodies as well.

A property holds throughout a value if it holds of the value and throughout all
its components.
-/

namespace MiniLisp

namespace Value

/-- The parts of a collection, and the body of a closure. -/
def components : Value → List Value
  | closure _ _ body _ => [body]
  | value => value.parts

@[simp]
theorem components_closure
    (identity : Nat)
    (parameters : Parameters)
    (body : Value)
    (home : Option FrameId) :
    (closure identity parameters body home).components = [body] := rfl

/-- A part is a component. -/
theorem mem_components_of_mem_parts
    {part value : Value}
    (member : part ∈ value.parts) :
    part ∈ value.components := by
  cases value with
  | closure => cases member
  | _ => exact member

/-- A component is smaller than the value. -/
theorem sizeOf_lt_of_mem_components
    {component value : Value}
    (member : component ∈ value.components) :
    sizeOf component < sizeOf value := by
  cases value with
  | closure identity parameters body home =>
      rw [components_closure, List.mem_singleton] at member
      subst member
      simp only [closure.sizeOf_spec]
      omega
  | _ =>
      exact sizeOf_lt_of_mem_parts member

/-- What passes from the components to the whole holds of every value. -/
@[elab_as_elim]
theorem induction_on_components
    {motive : Value → Prop}
    (value : Value)
    (step :
      ∀ value : Value,
        (∀ component ∈ value.components, motive component) → motive value) :
    motive value := by
  apply step
  intro component member
  have smaller := sizeOf_lt_of_mem_components member
  exact induction_on_components component step
termination_by sizeOf value

/-- A property holds of the value, of its parts and of the bodies of closures, at every depth. -/
inductive Throughout (property : Value → Prop) : Value → Prop where
  | intro
      {value : Value}
      (here : property value)
      (inside : ∀ component ∈ value.components, Throughout property component) :
      Throughout property value

namespace Throughout

variable {property : Value → Prop}

theorem here
    {value : Value}
    (holds : value.Throughout property) :
    property value := by
  cases holds with
  | intro here inside => exact here

theorem inside
    {value component : Value}
    (holds : value.Throughout property)
    (member : component ∈ value.components) :
    component.Throughout property := by
  cases holds with
  | intro here inside => exact inside component member

theorem parts
    {value part : Value}
    (holds : value.Throughout property)
    (member : part ∈ value.parts) :
    part.Throughout property :=
  holds.inside (mem_components_of_mem_parts member)

theorem body
    {identity : Nat}
    {parameters : Parameters}
    {body : Value}
    {home : Option FrameId}
    (holds : (closure identity parameters body home).Throughout property) :
    body.Throughout property :=
  holds.inside (List.mem_singleton_self body)

theorem mono
    {weaker : Value → Prop}
    {value : Value}
    (holds : value.Throughout property)
    (implies : ∀ value, property value → weaker value) :
    value.Throughout weaker := by
  induction holds with
  | intro here inside ih => exact .intro (implies _ here) ih

/-- In a value without functions, what holds of all values but functions holds throughout. -/
theorem of_no_function
    {value : Value}
    (plain : value.everywhere (fun part => !part.isFunction) = true)
    (holds : ∀ part : Value, part.isFunction = false → property part) :
    value.Throughout property := by
  induction value using induction_on_components with
  | step value ih =>
      obtain ⟨here, inParts⟩ := everywhere_iff.1 plain
      rw [Bool.not_eq_true'] at here
      refine .intro (holds value here) fun component member => ?_
      apply ih component member
      cases value with
      | closure => cases here
      | _ => exact inParts component member

end Throughout

end Value

end MiniLisp
