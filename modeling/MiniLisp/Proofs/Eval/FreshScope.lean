import MiniLisp.Proofs.Eval.Depth
import MiniLisp.Proofs.Eval.LocalDefinitions

/-!
# Local definitions as definitions in a fresh scope

This module shows that local definitions around a body are definitions in a frame of their
own: `(let* (x1 e1 ... xn en) body)` ends exactly as
`(let* () (do (def! x1 e1) ... (def! xn en) body))` does, with the same result or fault and
the same store (`letIn_ends_iff_scope`).  Nothing is asked of the names, of the forms or of
the store.

Both forms open one frame and bind every value there before the next form is evaluated
(`SpecialForm.bindEach`).  They differ in depth only, because a definition in a sequence
lies two levels deeper than a local definition, and a body in a sequence one level.
-/

namespace MiniLisp

namespace Value

/-- The local definition of names around a body, with the bindings in a vector. -/
def letInVectorForm (bindings : List (String × Value)) (body : Value) : Value :=
  list [symbol SpecialForm.letIn.name, vector (bindingItems bindings), body]

/-- The definition of a name in the current frame. -/
def definitionForm (binding : String × Value) : Value :=
  list [symbol SpecialForm.define.name, symbol binding.1, binding.2]

/-- The definitions of names one after the other, and a body after them. -/
def definitionsForm (bindings : List (String × Value)) (body : Value) : Value :=
  list (symbol SpecialForm.sequence.name :: (bindings.map definitionForm ++ [body]))

/-- The definitions of names and a body in a scope of their own. -/
def scopeForm (bindings : List (String × Value)) (body : Value) : Value :=
  letInForm [] (definitionsForm bindings body)

/-- The evaluation of a form ends so, if it may go deep enough. -/
def EndsAs
    (form : Value)
    (frame : FrameId)
    (store : Store)
    (ending : Except Fault Value × Store) :
    Prop :=
  ∃ depth, (eval depth frame form).outcome store = some ending

end Value

/-! ## Both forms as one action -/

namespace SpecialForm

/-- Forms before the last one are evaluated for what they do alone. -/
theorem evalSequence_concat
    (evaluate : Evaluator)
    (frame : FrameId)
    (forms : List Value)
    (last : Value) :
    evalSequence evaluate frame (forms ++ [last]) =
      forms.mapM (evaluate frame) >>= fun _ => evaluate frame last := by
  induction forms with
  | nil => rfl
  | cons form forms ih =>
      rw [List.cons_append, evalSequence, ih, List.mapM_cons]
      · simp only [bind_assoc, pure_bind]
      · simp

/-- Definitions that are evaluated as forms bind like local definitions. -/
theorem mapM_definitionForm
    (evaluate : Evaluator)
    (frame : FrameId)
    (bindings : List (String × Value)) :
    (bindings.map Value.definitionForm).mapM (Eval.evalForm evaluate frame) =
      bindEach evaluate frame bindings := by
  rw [List.mapM_map]
  rfl

end SpecialForm

namespace Eval

/-- The definitions of names in a frame that has been opened for them, and a body there. -/
def evalInScope
    (bindingEvaluate bodyEvaluate : Evaluator)
    (inner : FrameId)
    (bindings : List (String × Value))
    (body : Value) :
    Action Value := do
  let _ ← SpecialForm.bindEach bindingEvaluate inner bindings
  bodyEvaluate inner body

theorem evalForm_letInVectorForm
    (evaluate : Evaluator)
    (frame : FrameId)
    (bindings : List (String × Value))
    (body : Value) :
    evalForm evaluate frame (Value.letInVectorForm bindings body) =
      evalForm evaluate frame (Value.letInForm bindings body) := rfl

theorem evalForm_definitionsForm
    (evaluate : Evaluator)
    (frame : FrameId)
    (bindings : List (String × Value))
    (body : Value) :
    evalForm (evalForm evaluate) frame (Value.definitionsForm bindings body) =
      evalInScope evaluate (evalForm evaluate) frame bindings body := by
  show SpecialForm.evalSequence (evalForm evaluate) frame
    (bindings.map Value.definitionForm ++ [body]) = _
  rw [SpecialForm.evalSequence_concat, SpecialForm.mapM_definitionForm]
  rfl

end Eval

theorem outcome_scopeForm
    (depth : Nat)
    (frame : FrameId)
    (bindings : List (String × Value))
    (body : Value)
    (store : Store) :
    (eval (depth + 3) frame (Value.scopeForm bindings body)).outcome store =
      (Eval.evalInScope (eval depth) (eval (depth + 1)) store.nextFrame bindings body).outcome
        (store.addFrame ⟨[], some frame⟩) := by
  rw [eval_succ, Value.scopeForm, outcome_letInForm]
  show (eval (depth + 2) store.nextFrame (Value.definitionsForm bindings body)).outcome _ = _
  exact congrArg (Action.outcome · _)
    (Eval.evalForm_definitionsForm (eval depth) store.nextFrame bindings body)

theorem refines_evalInScope
    {bindingEvaluate bodyEvaluate bindingOther bodyOther : Evaluator}
    (bindingRefines : bindingEvaluate.Refines bindingOther)
    (bodyRefines : bodyEvaluate.Refines bodyOther)
    (inner : FrameId)
    (bindings : List (String × Value))
    (body : Value) :
    (Eval.evalInScope bindingEvaluate bodyEvaluate inner bindings body).Refines
      (Eval.evalInScope bindingOther bodyOther inner bindings body) := by
  have forms :
      Judgement.refinement.holds () (fun _ => List.Forall₂ Eq)
        (SpecialForm.bindEach bindingEvaluate inner bindings)
        (SpecialForm.bindEach bindingOther inner bindings) := by
    apply Judgement.holds_mapM
    · exact fun _ same => same
    · refine List.forall₂_same.2 fun binding _ _ _ => ?_
      exact (bindingRefines inner binding.2).bind fun value => .refl _
  exact forms.bind fun _ _ _ => bodyRefines inner body

/-- Two levels deeper, the scope does all that the local definitions do. -/
theorem letInForm_refines_scopeForm
    (depth : Nat)
    (frame : FrameId)
    (bindings : List (String × Value))
    (body : Value) :
    (eval depth frame (Value.letInForm bindings body)).Refines
      (eval (depth + 2) frame (Value.scopeForm bindings body)) := by
  cases depth with
  | zero =>
      rintro _ _ _ ⟨⟩
  | succ depth =>
      intro store outcome after ends
      rw [eval_succ, outcome_letInForm] at ends
      rw [outcome_scopeForm]
      have inBody := eval_refines (Nat.le_succ depth)
      have deeper := refines_evalInScope (eval_refines (Nat.le_refl depth)) inBody
      exact deeper store.nextFrame bindings body _ outcome after ends

/-- Two levels deeper, the local definitions do all that the scope does. -/
theorem scopeForm_refines_letInForm
    (depth : Nat)
    (frame : FrameId)
    (bindings : List (String × Value))
    (body : Value) :
    (eval depth frame (Value.scopeForm bindings body)).Refines
      (eval (depth + 2) frame (Value.letInForm bindings body)) := by
  intro store outcome after ends
  have inScope := (eval_refines (Nat.le_add_right depth 3) frame _).ends ends
  rw [outcome_scopeForm] at inScope
  rw [eval_succ, outcome_letInForm]
  have inForms := eval_refines (Nat.le_succ depth)
  have deeper := refines_evalInScope inForms (eval_refines (Nat.le_refl (depth + 1)))
  exact deeper store.nextFrame bindings body _ outcome after inScope

/--
Local definitions, with the bindings in a list or in a vector, end exactly as definitions
of the same names in a scope of their own: with the same result or fault and the same
store, what was written included, or not at all.
-/
theorem letIn_ends_iff_scope
    (bindings : List (String × Value))
    (body : Value)
    (frame : FrameId)
    (store : Store)
    (ending : Except Fault Value × Store) :
    ((Value.letInForm bindings body).EndsAs frame store ending ↔
        (Value.scopeForm bindings body).EndsAs frame store ending) ∧
      ((Value.letInVectorForm bindings body).EndsAs frame store ending ↔
        (Value.scopeForm bindings body).EndsAs frame store ending) := by
  have inList :
      (Value.letInForm bindings body).EndsAs frame store ending ↔
        (Value.scopeForm bindings body).EndsAs frame store ending := by
    constructor
    · rintro ⟨depth, ends⟩
      exact ⟨depth + 2, (letInForm_refines_scopeForm depth frame bindings body).ends ends⟩
    · rintro ⟨depth, ends⟩
      exact ⟨depth + 2, (scopeForm_refines_letInForm depth frame bindings body).ends ends⟩
  have inVector :
      (Value.letInVectorForm bindings body).EndsAs frame store ending ↔
        (Value.letInForm bindings body).EndsAs frame store ending := by
    apply exists_congr
    intro depth
    cases depth with
    | zero => rfl
    | succ depth => rw [eval_succ, Eval.evalForm_letInVectorForm, eval_succ]
  exact ⟨inList, inVector.trans inList⟩

end MiniLisp
