import MiniLisp.Eval.Action
import MiniLisp.Eval.Names

/-!
# Special forms

This module supplies the forms that are not function calls.  A list whose first
item is one of their symbols is a special form whatever is bound to the symbol.

Each form is written over a given evaluation of its parts, so that the bound on
the depth of evaluation is kept in one place.
-/

namespace MiniLisp

/-- An evaluation of forms in frames. -/
abbrev Evaluator := FrameId → Value → Action Value

/-- The forms with rules of their own. -/
inductive SpecialForm where
  | define
  | letIn
  | sequence
  | conditional
  | function
deriving DecidableEq, Repr

namespace SpecialForm

/-- The symbol that a special form starts with. -/
def name : SpecialForm → String
  | define => "def!"
  | letIn => "let*"
  | sequence => "do"
  | conditional => "if"
  | function => "fn*"

/-- The special form that a symbol starts. -/
def ofName? (symbol : String) : Option SpecialForm :=
  [define, letIn, sequence, conditional, function].find? (·.name == symbol)

/-- The special form that the first item of a list starts. -/
def ofHead? : Value → Option SpecialForm
  | .symbol symbol => ofName? symbol
  | _ => none

/-- The fault of a special form with a wrong number of parts. -/
def failArity (form : SpecialForm) (accepted : Arity) (parts : List Value) : Action Value :=
  Action.fail (.arity form.name accepted parts.length)

/-- The definition of a name in the current frame. -/
def evalDefine (evaluate : Evaluator) (frame : FrameId) : List Value → Action Value
  | [target, form] => do
    let name ← Action.ofExcept (target.bindingName define.name)
    let value ← evaluate frame form
    Action.define frame name value
    pure value
  | parts => define.failArity (.exactly 2) parts

/-- The definition of alternating names and forms, each seeing those before it. -/
def evalBindings (evaluate : Evaluator) (frame : FrameId) : List Value → Action Unit
  | target :: form :: rest => do
    let name ← Action.ofExcept (target.bindingName letIn.name)
    let value ← evaluate frame form
    Action.define frame name value
    evalBindings evaluate frame rest
  | _ => pure ()

/-- The evaluation of a body in a new frame with local definitions. -/
def evalLetIn (evaluate : Evaluator) (frame : FrameId) : List Value → Action Value
  | [bindings, body] =>
    match bindings.items? with
    | none =>
      Action.fail
        (.unexpectedValue letIn.name "a List or Vector of bindings" bindings)
    | some items =>
      if items.length % 2 = 0 then do
        let inner ← Action.openFrame frame []
        evalBindings evaluate inner items
        evaluate inner body
      else
        Action.fail (.binding letIn.name (.unpaired items.length))
  | parts => letIn.failArity (.exactly 2) parts

/-- The evaluation of forms one after the other, for the value of the last. -/
def evalSequence (evaluate : Evaluator) (frame : FrameId) : List Value → Action Value
  | [] => pure .nil
  | [form] => evaluate frame form
  | form :: forms => do
    let _ ← evaluate frame form
    evalSequence evaluate frame forms

/-- The evaluation of one of two forms, as a condition decides. -/
def evalConditional (evaluate : Evaluator) (frame : FrameId) : List Value → Action Value
  | [condition, positive] => do
    let value ← evaluate frame condition
    if value.isTruthy then evaluate frame positive else pure .nil
  | [condition, positive, negative] => do
    let value ← evaluate frame condition
    if value.isTruthy then evaluate frame positive else evaluate frame negative
  | parts => conditional.failArity (.between 2 3) parts

/-- The creation of a closure over the current frame. -/
def evalFunction (frame : FrameId) : List Value → Action Value
  | [parameters, body] => do
    let parameters ← Action.ofExcept (Parameters.ofValue function.name parameters)
    Action.makeClosure parameters body frame
  | parts => function.failArity (.exactly 2) parts

/-- The evaluation of a special form with given parts. -/
def eval (form : SpecialForm) (evaluate : Evaluator) (frame : FrameId) :
    List Value → Action Value :=
  match form with
  | define => evalDefine evaluate frame
  | letIn => evalLetIn evaluate frame
  | sequence => evalSequence evaluate frame
  | conditional => evalConditional evaluate frame
  | function => evalFunction frame

end SpecialForm

end MiniLisp
