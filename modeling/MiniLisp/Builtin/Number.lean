import MiniLisp.Fault
import MiniLisp.Integer

/-!
# Functions of numbers

This module supplies the four arithmetic operations and the four comparisons.

Arithmetic folds its arguments from the left in exact integers; a step whose
result is out of range, or that divides by zero, is a fault.  A comparison
first makes sure that all its arguments are numbers and then compares
neighbours.
-/

namespace MiniLisp

/-- The arithmetic operations. -/
inductive Operation where
  | addition
  | subtraction
  | multiplication
  | division
deriving DecidableEq, Repr

namespace Operation

/-- The name of the operation in messages. -/
def title : Operation → String
  | addition => "addition"
  | subtraction => "subtraction"
  | multiplication => "multiplication"
  | division => "division"

/-- The result in exact integers; division truncates toward zero. -/
def exact : Operation → Int → Int → Int
  | addition, left, right => left + right
  | subtraction, left, right => left - right
  | multiplication, left, right => left * right
  | division, left, right => left.tdiv right

/-- The operation on two numbers. -/
def apply (operation : Operation) (left right : Int64) : Except Fault Int64 :=
  if operation = division ∧ right = 0 then
    .error (.arithmetic operation.title .divideByZero)
  else
    match Integer.ofInt? (operation.exact left.toInt right.toInt) with
    | some result => .ok result
    | none => .error (.arithmetic operation.title .overflow)

/-- One step of a fold, from the running value to the next. -/
def step (operation : Operation) (running operand : Value) : Except Fault Value :=
  match running, operand with
  | .number left, .number right => (operation.apply left right).map .number
  | _, _ => .error (.operandValues operation.title running operand)

/-- The fold of the operation over operands, up to the first fault. -/
def fold (operation : Operation) : Value → List Value → Except Fault Value
  | running, [] => .ok running
  | running, operand :: operands =>
    match operation.step running operand with
    | .ok next => operation.fold next operands
    | .error fault => .error fault

end Operation

/-- The comparisons of numbers. -/
inductive Comparison where
  | less
  | atMost
  | greater
  | atLeast
deriving DecidableEq, Repr

namespace Comparison

/-- The comparison holds between two numbers. -/
def holds : Comparison → Int64 → Int64 → Bool
  | less, left, right => left < right
  | atMost, left, right => left ≤ right
  | greater, left, right => right < left
  | atLeast, left, right => right ≤ left

/-- The comparison holds between all neighbours. -/
def chain (comparison : Comparison) : List Int64 → Bool
  | left :: right :: rest =>
    comparison.holds left right && comparison.chain (right :: rest)
  | _ => true

end Comparison

namespace Value

/-- The number that a function with a name requires as its argument. -/
def requireNumber (name : String) : Value → Except Fault Int64
  | number integer => .ok integer
  | other => .error (.unexpectedValue name "Number" other)

/-- The numbers that a function with a name requires as its arguments. -/
def requireNumbers (name : String) : List Value → Except Fault (List Int64)
  | [] => .ok []
  | argument :: arguments =>
    match argument.requireNumber name with
    | .error fault => .error fault
    | .ok integer => (requireNumbers name arguments).map (integer :: ·)

end Value

end MiniLisp
