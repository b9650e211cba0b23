import MiniLisp.Fault

/-!
# Names in special forms

This module supplies the names that special forms bind: the single name of a
definition, and the parameters of a function.

In a list of parameters the mark `&` may stand once, directly before the last
name, which is then bound to all further arguments.
-/

namespace MiniLisp

namespace Value

/-- The name that a special form is to bind. -/
def bindingName (form : String) : Value → Except Fault String
  | symbol name => .ok name
  | other => .error (.binding form (.notSymbol other.describe))

/-- The names that a special form is to bind, in order. -/
def bindingNames (form : String) : List Value → Except Fault (List String)
  | [] => .ok []
  | value :: values =>
    match value.bindingName form with
    | .error fault => .error fault
    | .ok name => (bindingNames form values).map (name :: ·)

end Value

namespace Parameters

/-- The mark of the rest parameter. -/
def restMark : String := "&"

/-- The parameters that a list of names denotes. -/
def ofNames? (names : List String) : Option Parameters :=
  if names.count restMark = 0 then
    some ⟨names, none⟩
  else
    match names.reverse with
    | last :: mark :: before =>
      if mark = restMark ∧ names.count restMark = 1 then
        some ⟨before.reverse, some last⟩
      else
        none
    | _ => none

/-- The parameters that a list or a vector of symbols denotes in a special form. -/
def ofValue (form : String) (value : Value) : Except Fault Parameters :=
  match value.items? with
  | none => .error (.unexpectedValue form "a List or Vector of parameters" value)
  | some items =>
    match Value.bindingNames form items with
    | .error fault => .error fault
    | .ok names =>
      match ofNames? names with
      | some parameters => .ok parameters
      | none => .error (.binding form .restMark)

/-- The bindings of the parameters to arguments, the rest parameter last. -/
def bind (parameters : Parameters) (arguments : List Value) : List (String × Value) :=
  parameters.positional.zip arguments ++
    match parameters.rest with
    | some name => [(name, .list (arguments.drop parameters.positional.length))]
    | none => []

end Parameters

end MiniLisp
