import MiniLisp.Builtin.Number
import MiniLisp.Builtin.Printed
import MiniLisp.Value.Equality

/-!
# Results of builtin functions

This module supplies what each builtin function does with its arguments: the
result or the fault, and the text that it writes.  Neither depends on the
store, so builtin functions have no memory.

A function that does not accept the number of its arguments fails before it
looks at any of them.
-/

namespace MiniLisp.Builtin

/-- A function of exactly one argument. -/
def unary
    (name : String)
    (result : Value → Value) :
    List Value → Except Fault Value
  | [argument] => .ok (result argument)
  | arguments => .error (.arity name (.exactly 1) arguments.length)

/-- A function of at least two arguments, given the first and the others. -/
def multiary
    (name : String)
    (result : Value → List Value → Except Fault Value) :
    List Value → Except Fault Value
  | first :: second :: rest => result first (second :: rest)
  | arguments => .error (.arity name (.atLeast 2) arguments.length)

/-- A comparison of all neighbours, once all arguments are known to be numbers. -/
def compareNumbers
    (name : String)
    (comparison : Comparison) :
    List Value → Except Fault Value :=
  multiary name fun first rest =>
    (Value.requireNumbers name (first :: rest)).map fun numbers =>
      .boolean (comparison.chain numbers)

/-- The first argument that passes a test, else the last one, else a default. -/
def firstOrLast
    (test : Value → Bool)
    (default : Value)
    (arguments : List Value) :
    Value :=
  match arguments.find? test with
  | some argument => argument
  | none => arguments.getLast?.getD default

/-- The size of a collection as a number; other values have size zero. -/
def sizeNumber (argument : Value) : Int64 :=
  (Integer.ofInt? (argument.size?.getD 0 : Nat)).getD Int64.maxValue

/-- The result of a builtin function. -/
def result (builtin : Builtin) : List Value → Except Fault Value :=
  match builtin with
  | add => multiary builtin.name Operation.addition.fold
  | subtract => multiary builtin.name Operation.subtraction.fold
  | multiply => multiary builtin.name Operation.multiplication.fold
  | divide => multiary builtin.name Operation.division.fold
  | equal => multiary builtin.name fun first rest => .ok (.boolean (rest.all (· == first)))
  | greater => compareNumbers builtin.name .greater
  | atLeast => compareNumbers builtin.name .atLeast
  | less => compareNumbers builtin.name .less
  | atMost => compareNumbers builtin.name .atMost
  | negation => unary builtin.name fun argument => .boolean (!argument.isTruthy)
  | conjunction => fun arguments => .ok (firstOrLast (!·.isTruthy) (.boolean true) arguments)
  | disjunction => fun arguments => .ok (firstOrLast (·.isTruthy) .nil arguments)
  | list => fun arguments => .ok (.list arguments)
  | isList => unary builtin.name fun argument => .boolean argument.isList
  | isEmpty => unary builtin.name fun argument => .boolean (argument.size? == some 0)
  | count => unary builtin.name fun argument => .number (sizeNumber argument)
  | str => fun arguments => .ok (.string (String.ofList (Printed.raw arguments)))
  | prStr => fun arguments => .ok (.string (String.ofList (Printed.escaped arguments)))
  | prn => fun _ => .ok .nil
  | println => fun _ => .ok .nil

/-- The text that a builtin function writes. -/
def written (builtin : Builtin) (arguments : List Value) : String :=
  match builtin with
  | prn => String.ofList (Printed.readable arguments ++ ['\n'])
  | println => String.ofList (Printed.decoded arguments ++ ['\n'])
  | _ => ""

end MiniLisp.Builtin
