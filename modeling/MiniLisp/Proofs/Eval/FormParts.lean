import MiniLisp.Eval

/-!
# Parts of forms

This module supplies the parts of a form that its evaluation comes to, each in its role
(`Value.HasPart`).

Most parts are evaluated in the frame of the whole.  A special form may also evaluate parts
in a frame of its own, define a name, or make a function of a part.  What is asked of a
form is asked of its parts according to these roles.
-/

namespace MiniLisp

/-- What a part of a form is there for. -/
inductive Role where
  /-- The form itself, if it stands for a value without the evaluation of any part. -/
  | itself
  /-- A name that is defined in the frame of the form. -/
  | target
  /-- A form that is evaluated in the frame of the whole. -/
  | here
  /-- A form that is evaluated in a new frame below that of the whole. -/
  | inside
  /-- The body of a function that is made in the frame of the form. -/
  | body

namespace Value

/-- Values other than lists, vectors and maps that evaluate to themselves. -/
def isConstant : Value → Bool
  | nil => true
  | boolean _ => true
  | number _ => true
  | string _ => true
  | keyword _ => true
  | closure .. => true
  | native .. => true
  | _ => false

/-- The forms among alternating names and forms. -/
inductive HasLocalForm : List Value → Value → Prop where
  | first
      (target form : Value)
      (rest : List Value) :
      HasLocalForm (target :: form :: rest) form
  | later
      {form : Value}
      {rest : List Value}
      (target other : Value)
      (among : HasLocalForm rest form) :
      HasLocalForm (target :: other :: rest) form

theorem HasLocalForm.mem
    {items : List Value}
    {form : Value}
    (among : HasLocalForm items form) :
    form ∈ items := by
  induction among with
  | first => simp
  | later target other among ih => simp [ih]

/-- The parts of a form that its evaluation comes to, and what for. -/
inductive HasPart : Value → Role → Value → Prop where
  | symbol (name : String) :
      HasPart (symbol name) .itself (symbol name)
  | comment (text : String) :
      HasPart (comment text) .itself (comment text)
  | constant
      {value : Value}
      (constant : value.isConstant = true) :
      HasPart value .itself value
  | item
      {items : List Value}
      {item : Value}
      (member : item ∈ items) :
      HasPart (vector items) .here item
  | key
      {entries : List (Value × Value)}
      {entry : Value × Value}
      (member : entry ∈ entries) :
      HasPart (map entries) .here entry.1
  | entry
      {entries : List (Value × Value)}
      {entry : Value × Value}
      (member : entry ∈ entries) :
      HasPart (map entries) .here entry.2
  | called
      {head part : Value}
      {parts : List Value}
      (plain : SpecialForm.ofHead? head = none)
      (member : part ∈ head :: parts) :
      HasPart (list (head :: parts)) .here part
  | target
      {head : Value}
      (special : SpecialForm.ofHead? head = some .define)
      (name : String)
      (form : Value) :
      HasPart (list [head, symbol name, form]) .target (symbol name)
  | defined
      {head : Value}
      (special : SpecialForm.ofHead? head = some .define)
      (name : String)
      (form : Value) :
      HasPart (list [head, symbol name, form]) .here form
  | step
      {head part : Value}
      {parts : List Value}
      (special : SpecialForm.ofHead? head = some .sequence)
      (member : part ∈ parts) :
      HasPart (list (head :: parts)) .here part
  | branch
      {head condition part : Value}
      {branches : List Value}
      (special : SpecialForm.ofHead? head = some .conditional)
      (formed : branches.length = 1 ∨ branches.length = 2)
      (member : part ∈ condition :: branches) :
      HasPart (list (head :: condition :: branches)) .here part
  | localForm
      {head bindings form : Value}
      {items : List Value}
      (special : SpecialForm.ofHead? head = some .letIn)
      (sequence : bindings.items? = some items)
      (among : HasLocalForm items form)
      (body : Value) :
      HasPart (list [head, bindings, body]) .inside form
  | localBody
      {head : Value}
      (special : SpecialForm.ofHead? head = some .letIn)
      (bindings body : Value) :
      HasPart (list [head, bindings, body]) .inside body
  | functionBody
      {head : Value}
      (special : SpecialForm.ofHead? head = some .function)
      (parameters body : Value) :
      HasPart (list [head, parameters, body]) .body body

end Value

theorem Eval.evalForm_of_isConstant
    {constant : Value}
    (isConstant : constant.isConstant = true)
    (evaluate : Evaluator)
    (frame : FrameId) :
    evalForm evaluate frame constant = pure constant := by
  cases constant with
  | symbol => cases isConstant
  | list => cases isConstant
  | vector => cases isConstant
  | map => cases isConstant
  | comment => cases isConstant
  | _ => rfl

end MiniLisp
