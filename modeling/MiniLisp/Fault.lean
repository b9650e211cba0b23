import MiniLisp.Arity
import MiniLisp.Form.ParseError
import MiniLisp.Value.Kind

/-!
# Faults of evaluation

This module supplies the ways in which a program can fail, and their messages.
A fault ends the whole evaluation.  Values occur in faults only by their
descriptions, so two runs that differ in the identities of functions fail alike.
-/

namespace MiniLisp

/-- What is wrong with names that a special form is asked to bind. -/
inductive BindingProblem where
  /-- Something other than a symbol stands in the place of a name. -/
  | notSymbol (description : String)
  /-- A name has no form for its value. -/
  | unpaired (count : Nat)
  /-- The mark of the rest parameter is misplaced or repeated. -/
  | restMark
deriving DecidableEq, Repr

namespace BindingProblem

/-- The part of the message that describes the problem. -/
def describe : BindingProblem → String
  | notSymbol description => "expected a symbol, got " ++ description
  | unpaired count => s!"bindings must contain an even number of forms, got {count}"
  | restMark => "& must appear exactly once, directly before the last parameter"

end BindingProblem

/-- What an arithmetic operation cannot do. -/
inductive ArithmeticProblem where
  | divideByZero
  | overflow
deriving DecidableEq, Repr

namespace ArithmeticProblem

/-- The part of the message that describes the problem. -/
def describe : ArithmeticProblem → String
  | divideByZero => "divide by zero"
  | overflow => "integer overflow"

end ArithmeticProblem

/-- What a function carries instead of what its application needs. -/
inductive InternalProblem where
  /-- A closure carries something that is no frame. -/
  | home
  /-- A function that is not written in the language carries something that cannot be called. -/
  | routine
deriving DecidableEq, Repr

namespace InternalProblem

/-- The part of the message that describes the problem. -/
def describe : InternalProblem → String
  | home => "function environment has invalid type"
  | routine => "native function has invalid type"

end InternalProblem

/-- The reason why a program failed. -/
inductive Fault where
  | parse (error : ParseError)
  | unbound (name : String)
  /-- A value of another kind was expected. -/
  | unexpected (context expected description : String)
  /-- An operation on two numbers was given something else. -/
  | operands (operation left right : String)
  | arity (name : String) (accepted : Arity) (count : Nat)
  | binding (form : String) (problem : BindingProblem)
  | arithmetic (operation : String) (problem : ArithmeticProblem)
  | internal (problem : InternalProblem)
deriving DecidableEq, Repr

namespace Fault

/-- The fault of a value that is not of the expected kind. -/
def unexpectedValue (context expected : String) (value : Value) : Fault :=
  unexpected context expected value.describe

/-- The fault of two values that an operation on numbers cannot combine. -/
def operandValues (operation : String) (left right : Value) : Fault :=
  operands operation left.describe right.describe

/-- The message that describes the fault. -/
def message : Fault → String
  | parse error => error.message
  | unbound name => "symbol '" ++ name ++ "' is not defined"
  | unexpected context expected description =>
    context ++ ": expected " ++ expected ++ ", got " ++ description
  | operands operation left right =>
    "cannot apply " ++ operation ++ ": given types: " ++ left ++ " and " ++ right
  | arity name accepted count =>
    "wrong number of arguments to '" ++ name ++ "': expected " ++ accepted.describe
      ++ ", got " ++ toString count
  | binding form problem =>
    "invalid binding in '" ++ form ++ "': " ++ problem.describe
  | arithmetic operation problem => operation ++ ": " ++ problem.describe
  | internal problem => "internal error: " ++ problem.describe

end Fault

/-- The check that a number of arguments is admitted. -/
def Arity.check (accepted : Arity) (name : String) (count : Nat) : Except Fault Unit :=
  if accepted.accepts count then
    .ok ()
  else
    .error (.arity name accepted count)

end MiniLisp
