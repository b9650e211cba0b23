import MiniLisp.Eval.Call
import MiniLisp.Value.Entries

/-!
# Evaluation

This module supplies the evaluation of a form in a frame.  Symbols stand for
their values, lists for special forms or calls, and vectors and maps for the
collections of their evaluated parts; every other value stands for itself.

Evaluation is bounded by the depth of nested evaluations.  If a depth is enough
for a result or a fault, the result or fault does not depend on it.
-/

namespace MiniLisp

namespace Eval

/-- The evaluation of a key and its value. -/
def evalEntry
    (evaluate : Evaluator)
    (frame : FrameId)
    (entry : Value × Value) :
    Action (Value × Value) := do
  let key ← evaluate frame entry.1
  let value ← evaluate frame entry.2
  pure (key, value)

/-- The evaluation of a list with at least one item. -/
def evalList
    (evaluate : Evaluator)
    (frame : FrameId)
    (head : Value)
    (parts : List Value) :
    Action Value :=
  match SpecialForm.ofHead? head with
  | some form => form.eval evaluate frame parts
  | none => do
    let function ← evaluate frame head
    let arguments ← parts.mapM (evaluate frame)
    Call.apply evaluate function arguments

/-- The evaluation of a form, given the evaluation of its parts. -/
def evalForm (evaluate : Evaluator) (frame : FrameId) : Value → Action Value
  | .symbol name => Action.lookup frame name
  | .list [] => pure (.list [])
  | .list (head :: parts) => evalList evaluate frame head parts
  | .vector items => return .vector (← items.mapM (evaluate frame))
  | .map entries => return .map (Entries.ofPairs (← entries.mapM (evalEntry evaluate frame)))
  | .comment text => Action.fail (.unexpectedValue "eval" "an expression" (.comment text))
  | value => pure value

end Eval

/-- The evaluation of a form in a frame, with a bound on the depth of nesting. -/
def eval : Nat → Evaluator
  | 0, _, _ => Action.tooDeep
  | depth + 1, frame, form => Eval.evalForm (eval depth) frame form

@[simp]
theorem eval_zero (frame : FrameId) (form : Value) :
    eval 0 frame form = Action.tooDeep := rfl

@[simp]
theorem eval_succ (depth : Nat) (frame : FrameId) (form : Value) :
    eval (depth + 1) frame form = Eval.evalForm (eval depth) frame form := rfl

end MiniLisp
