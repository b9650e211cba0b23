import MiniLisp.Builtin.Result
import MiniLisp.Eval.SpecialForm

/-!
# Calls

This module supplies the application of a function to argument values.  The
body of a closure is evaluated in a new frame below the frame in which the
closure was made, wherever the call stands.

The number of arguments is checked before anything that the closure carries is
looked at.  A function that carries something else than its application needs
fails with an internal fault.
-/

namespace MiniLisp.Call

/-- The application of a builtin function. -/
def applyBuiltin (builtin : Builtin) (arguments : List Value) : Action Value := do
  let value ← Action.ofExcept (builtin.result arguments)
  Action.write (builtin.written arguments)
  pure value

/-- The application of a function that is not written in the language. -/
def applyNative (routine : Routine) (arguments : List Value) : Action Value :=
  match routine with
  | .builtin builtin => applyBuiltin builtin arguments
  | .foreign _ => Action.fail (.internal .routine)

/-- The application of a closure. -/
def applyClosure
    (evaluate : Evaluator)
    (parameters : Parameters)
    (body : Value)
    (home : Option FrameId)
    (arguments : List Value) :
    Action Value :=
  if parameters.arity.accepts arguments.length then
    match home with
    | some home => do
      let frame ←
        Action.openFrame home (Bindings.ofPairs (parameters.bind arguments))
      evaluate frame body
    | none => Action.fail (.internal .home)
  else
    Action.fail
      (.arity SpecialForm.function.name parameters.arity arguments.length)

/-- The application of a value to arguments. -/
def apply (evaluate : Evaluator) (function : Value) (arguments : List Value) : Action Value :=
  match function with
  | .closure _ parameters body home =>
    applyClosure evaluate parameters body home arguments
  | .native _ routine => applyNative routine arguments
  | other => Action.fail (.unexpectedValue "apply" "Function" other)

end MiniLisp.Call
