import MiniLisp.Eval.Names
import MiniLisp.Proofs.Builtin.Arithmetic

/-!
# Faults of builtin functions and of names

This module tells apart the faults that evaluation itself reports.  A fault is
ordinary if it is no syntax error, does not come from the evaluation of a
comment, which alone names `eval` as its context, and does not come from the
application of a function that carries something else than it should.

Builtin functions, and special forms that are asked to bind names, report
ordinary faults only.
-/

namespace MiniLisp

namespace Fault

/--
A fault other than a syntax error, other than a comment in the place of a form, and other
than an internal one.
-/
def IsOrdinary : Fault → Prop
  | parse _ => False
  | internal _ => False
  | unexpected context _ _ => context ≠ "eval"
  | _ => True

/-- The fault of a comment in the place of a form. -/
def ofComment (text : String) : Fault :=
  unexpectedValue "eval" "an expression" (.comment text)

theorem isOrdinary_unexpectedValue
    {context : String}
    (noEval : context ≠ "eval")
    (expected : String)
    (value : Value) :
    (unexpectedValue context expected value).IsOrdinary :=
  noEval

theorem IsOrdinary.ne_parse
    {fault : Fault}
    (ordinary : fault.IsOrdinary)
    (error : ParseError) :
    fault ≠ parse error := by
  rintro rfl
  exact ordinary

theorem IsOrdinary.ne_internal
    {fault : Fault}
    (ordinary : fault.IsOrdinary)
    (problem : InternalProblem) :
    fault ≠ internal problem := by
  rintro rfl
  exact ordinary

theorem IsOrdinary.ne_ofComment
    {fault : Fault}
    (ordinary : fault.IsOrdinary)
    (text : String) :
    fault ≠ ofComment text := by
  rintro rfl
  exact ordinary rfl

end Fault

/-- Whatever fault is given is ordinary. -/
def FailsOrdinarily {Result : Type} (given : Except Fault Result) : Prop :=
  ∀ fault, given = .error fault → fault.IsOrdinary

namespace FailsOrdinarily

variable {First Second : Type}

theorem ok (result : First) :
    FailsOrdinarily (.ok result) := by
  rintro _ ⟨⟩

theorem error
    {fault : Fault}
    (ordinary : fault.IsOrdinary) :
    FailsOrdinarily (.error fault : Except Fault First) := by
  rintro _ ⟨⟩
  exact ordinary

theorem map
    {given : Except Fault First}
    (ordinarily : FailsOrdinarily given)
    (next : First → Second) :
    FailsOrdinarily (given.map next) := by
  cases given with
  | error fault => exact .error (ordinarily fault rfl)
  | ok result => exact .ok (next result)

end FailsOrdinarily

/-! ## Names -/

namespace Value

theorem failsOrdinarily_bindingName
    (form : String)
    (target : Value) :
    FailsOrdinarily (target.bindingName form) := by
  cases target with
  | symbol name => exact .ok name
  | _ => exact .error trivial

theorem failsOrdinarily_bindingNames
    (form : String)
    (targets : List Value) :
    FailsOrdinarily (bindingNames form targets) := by
  induction targets with
  | nil => exact .ok []
  | cons target targets ih =>
      rw [bindingNames]
      split
      · next fault failed =>
          exact .error (target.failsOrdinarily_bindingName form fault failed)
      · next name _ => exact ih.map (name :: ·)

end Value

namespace Parameters

theorem failsOrdinarily_ofValue
    {form : String}
    (noEval : form ≠ "eval")
    (value : Value) :
    FailsOrdinarily (ofValue form value) := by
  rw [ofValue]
  split
  · exact .error (Fault.isOrdinary_unexpectedValue noEval _ value)
  · next items _ =>
      split
      · next fault failed =>
          exact .error (Value.failsOrdinarily_bindingNames form items fault failed)
      · split
        · next parameters _ => exact .ok parameters
        · exact .error trivial

end Parameters

/-! ## Builtin functions -/

namespace Operation

/-- Only a step of the fold can fail, and each of its three faults is ordinary. -/
theorem failsOrdinarily_fold
    (operation : Operation)
    (running : Value)
    (operands : List Value) :
    FailsOrdinarily (operation.fold running operands) := by
  intro fault failed
  obtain ⟨_, _, _, _, -, -, failed⟩ := fold_eq_error_iff.1 failed
  cases step_eq_error_iff.1 failed <;> exact trivial

end Operation

theorem Value.failsOrdinarily_requireNumbers
    {name : String}
    (noEval : name ≠ "eval")
    (arguments : List Value) :
    FailsOrdinarily (requireNumbers name arguments) := by
  induction arguments with
  | nil => exact .ok []
  | cons argument arguments ih =>
      rw [requireNumbers]
      split
      · next fault failed =>
          cases argument with
          | number integer => cases failed
          | _ =>
              cases failed
              exact .error (Fault.isOrdinary_unexpectedValue noEval _ _)
      · next integer _ => exact ih.map (integer :: ·)

namespace Builtin

theorem name_ne_eval (builtin : Builtin) : builtin.name ≠ "eval" := by
  cases builtin <;> decide

theorem failsOrdinarily_unary
    (name : String)
    (result : Value → Value)
    (arguments : List Value) :
    FailsOrdinarily (unary name result arguments) := by
  unfold unary
  split
  · next argument => exact .ok (result argument)
  · exact .error trivial

theorem failsOrdinarily_multiary
    {name : String}
    {result : Value → List Value → Except Fault Value}
    (ordinarily : ∀ first rest, FailsOrdinarily (result first rest))
    (arguments : List Value) :
    FailsOrdinarily (multiary name result arguments) := by
  unfold multiary
  split
  · exact ordinarily _ _
  · exact .error trivial

theorem failsOrdinarily_compareNumbers
    {name : String}
    (noEval : name ≠ "eval")
    (comparison : Comparison)
    (arguments : List Value) :
    FailsOrdinarily (compareNumbers name comparison arguments) := by
  apply failsOrdinarily_multiary
  intro first rest
  exact (Value.failsOrdinarily_requireNumbers noEval (first :: rest)).map _

/-- Builtin functions report ordinary faults only. -/
theorem failsOrdinarily_result
    (builtin : Builtin)
    (arguments : List Value) :
    FailsOrdinarily (builtin.result arguments) := by
  have noEval := builtin.name_ne_eval
  cases builtin with
  | add => exact failsOrdinarily_multiary (Operation.failsOrdinarily_fold _) arguments
  | subtract => exact failsOrdinarily_multiary (Operation.failsOrdinarily_fold _) arguments
  | multiply => exact failsOrdinarily_multiary (Operation.failsOrdinarily_fold _) arguments
  | divide => exact failsOrdinarily_multiary (Operation.failsOrdinarily_fold _) arguments
  | equal =>
      rw [result]
      apply failsOrdinarily_multiary
      intro first rest
      exact .ok _
  | greater => exact failsOrdinarily_compareNumbers noEval _ arguments
  | atLeast => exact failsOrdinarily_compareNumbers noEval _ arguments
  | less => exact failsOrdinarily_compareNumbers noEval _ arguments
  | atMost => exact failsOrdinarily_compareNumbers noEval _ arguments
  | negation => exact failsOrdinarily_unary _ _ arguments
  | isList => exact failsOrdinarily_unary _ _ arguments
  | isEmpty => exact failsOrdinarily_unary _ _ arguments
  | count => exact failsOrdinarily_unary _ _ arguments
  | _ => exact .ok _

end Builtin

end MiniLisp
