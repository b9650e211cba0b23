import MiniLisp.Arity
import MiniLisp.Builtin

/-!
# Values

This module supplies the values of the language.  Source forms and the results
of evaluation have one type: a form is a value that has not been evaluated.

The entries of a map are kept in ascending order of their keys; the operations
on entries keep them so.  A closure refers to the frame in which it was made by
the index of the frame in the store.  Every function carries the number of its
creation, which sets it apart from every other function.

A value does not restrict what a function carries.  A closure may be built around
something that is no frame, and a function that is not written in the language
around something that cannot be called.  Only the application of such a function
finds out.
-/

namespace MiniLisp

/-- The index of a frame in the store. -/
abbrev FrameId := Nat

/-- The names that a closure binds to its arguments. -/
structure Parameters where
  /-- The names bound to the leading arguments, in order. -/
  positional : List String
  /-- The name bound to the list of all further arguments, if there is one. -/
  rest : Option String
deriving DecidableEq, Repr

namespace Parameters

/-- The numbers of arguments for which every name has a value. -/
def arity (parameters : Parameters) : Arity :=
  if parameters.rest.isSome then
    .atLeast parameters.positional.length
  else
    .exactly parameters.positional.length

end Parameters

/-- What a function carries that is not written in the language. -/
inductive Routine where
  | builtin (builtin : Builtin)
  /-- Something that cannot be called, under the name of a function. -/
  | foreign (name : String)
deriving DecidableEq, Repr

namespace Routine

instance : Coe Builtin Routine := ⟨builtin⟩

/-- The name under which the function is shown. -/
def name : Routine → String
  | .builtin function => function.name
  | .foreign name => name

end Routine

/-- Forms and the results of their evaluation. -/
inductive Value where
  | nil
  | boolean (truth : Bool)
  | number (integer : Int64)
  /-- A string, with its contents as they are written between the quotes. -/
  | string (contents : String)
  | symbol (name : String)
  /-- A keyword, by its name without the leading colon. -/
  | keyword (name : String)
  | list (items : List Value)
  | vector (items : List Value)
  | map (entries : List (Value × Value))
  /-- A closure, with the frame in which it was made, unless it carries something else. -/
  | closure
      (identity : Nat)
      (parameters : Parameters)
      (body : Value)
      (home : Option FrameId)
  | native (identity : Nat) (routine : Routine)
  /-- A comment, with the semicolon and without the line end. -/
  | comment (text : String)
deriving Inhabited

namespace Value

/-- Everything but nil and false counts as true in a condition. -/
def isTruthy : Value → Bool
  | nil => false
  | boolean truth => truth
  | _ => true

/-- Closures and builtin functions. -/
def isFunction : Value → Bool
  | closure .. => true
  | native .. => true
  | _ => false

/-- Lists alone, without vectors. -/
def isList : Value → Bool
  | list _ => true
  | _ => false

/-- The items of a list or of a vector. -/
def items? : Value → Option (List Value)
  | list items => some items
  | vector items => some items
  | _ => none

/-- The number of items or entries of a collection. -/
def size? : Value → Option Nat
  | list items => some items.length
  | vector items => some items.length
  | map entries => some entries.length
  | _ => none

end Value

end MiniLisp
