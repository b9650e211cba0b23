import MiniLisp.Proofs.Eval.Effects
import MiniLisp.Proofs.Eval.MapForms

/-!
# What a fault leaves

This module shows that a fault undoes nothing.  The evaluation of a form in a frame comes,
part by part, to a last action that fails of itself: the application of a function, or the
evaluation of a form without parts in the frame (`Eval.Reaches`).  The fault of the whole
evaluation is the fault of this action, and the store that is left is the store that this
action leaves (`eval_fails_iff`).  As the action keeps all frames (`Eval.Reaches.keeps`),
the definitions made before the fault are there after it.

The parts of a form are evaluated in order (`Value.orderedParts`).  Only the branches of a
conditional are not among them, because the value of the condition decides on them.
-/

namespace MiniLisp

namespace Value

/-- The parts of a form that are evaluated in its frame, in order, whatever their values. -/
def orderedParts : Value → List Value
  | list (head :: parts) =>
    match SpecialForm.ofHead? head, parts with
    | none, parts => head :: parts
    | some .define, [symbol _, form] => [form]
    | some .sequence, parts => parts
    | some .conditional, condition :: branches =>
      if branches.length = 1 ∨ branches.length = 2 then [condition] else []
    | _, _ => []
  | vector items => items
  | map entries => Entries.items entries
  | _ => []

theorem orderedParts_list
    (head : Value)
    (parts : List Value) :
    (list (head :: parts)).orderedParts =
      match SpecialForm.ofHead? head, parts with
      | none, parts => head :: parts
      | some .define, [symbol _, form] => [form]
      | some .sequence, parts => parts
      | some .conditional, condition :: branches =>
        if branches.length = 1 ∨ branches.length = 2 then [condition] else []
      | _, _ => [] := by
  rw [orderedParts.eq_def]

/-- If anything is evaluated or defined in the frame of a form, then so is a first part. -/
theorem HasPart.orderedParts_ne_nil
    {form part : Value}
    {role : Role}
    (isPart : form.HasPart role part)
    (inFrame : role = .here ∨ role = .target) :
    form.orderedParts ≠ [] := by
  cases isPart with
  | item member => exact List.ne_nil_of_mem member
  | key member => exact List.ne_nil_of_mem (Entries.key_mem_items member)
  | entry member => exact List.ne_nil_of_mem (Entries.value_mem_items member)
  | called plain => simp [orderedParts_list, plain]
  | target special => simp [orderedParts_list, special]
  | defined special => simp [orderedParts_list, special]
  | step special member => simpa [orderedParts_list, special] using List.ne_nil_of_mem member
  | branch special formed => simp [orderedParts_list, special, formed]
  | _ => simp at inFrame

end Value

namespace Action

variable {First Second : Type}

/-- Two actions in a row fail if the first one does, or the second one after the first. -/
theorem outcome_bind_eq_error_iff
    {action : Action First}
    {next : First → Action Second}
    {store after : Store}
    {fault : Fault} :
    (action >>= next).outcome store = some (.error fault, after) ↔
      action.outcome store = some (.error fault, after) ∨
        ∃ result between,
          action.outcome store = some (.ok result, between) ∧
            (next result).outcome between = some (.error fault, after) := by
  rw [outcome_bind]
  rcases action.outcome store with _ | ⟨failed | result, between⟩
  · simp
  · simp
  · simp

theorem outcome_map_eq_error_iff
    {change : First → Second}
    {action : Action First}
    {store after : Store}
    {fault : Fault} :
    (change <$> action).outcome store = some (.error fault, after) ↔
      action.outcome store = some (.error fault, after) := by
  rw [map_eq_pure_bind, outcome_bind_eq_error_iff]
  simp

theorem mapM_singleton_bind
    (action : First → Action Second)
    (item : First)
    {Third : Type}
    (next : List Second → Action Third) :
    [item].mapM action >>= next = action item >>= fun result => next [result] := by
  rw [List.mapM_cons, List.mapM_nil, bind_assoc]
  simp only [pure_bind]

theorem outcome_of_mapM_singleton
    {action : First → Action Second}
    {item : First}
    {result : Second}
    {store after : Store}
    (ends : ([item].mapM action).outcome store = some (.ok [result], after)) :
    (action item).outcome store = some (.ok result, after) := by
  rw [List.mapM_cons] at ends
  obtain ⟨value, between, made, later⟩ := exists_of_outcome_bind_eq_ok ends
  cases later
  exact made

/-- A traversal fails at the first item that does. -/
theorem outcome_mapM_eq_error_iff
    {action : First → Action Second}
    {items : List First}
    {store after : Store}
    {fault : Fault} :
    (items.mapM action).outcome store = some (.error fault, after) ↔
      ∃ done item rest results between,
        items = done ++ item :: rest ∧
          (done.mapM action).outcome store = some (.ok results, between) ∧
          (action item).outcome between = some (.error fault, after) := by
  induction items generalizing store with
  | nil => simp
  | cons first items ih =>
      rw [List.mapM_cons, outcome_bind_eq_error_iff]
      constructor
      · rintro (failed | ⟨result, between, made, later⟩)
        · exact ⟨[], first, items, [], store, rfl, rfl, failed⟩
        · rw [bind_pure_comp, outcome_map_eq_error_iff, ih] at later
          obtain ⟨done, item, rest, results, moment, rfl, finished, failed⟩ := later
          refine ⟨first :: done, item, rest, result :: results, moment, rfl, ?_, failed⟩
          rw [List.mapM_cons, outcome_bind, made]
          show (List.cons result <$> done.mapM action).outcome between = _
          rw [outcome_map, finished]
          rfl
      · rintro ⟨_ | ⟨_, done⟩, item, rest, results, moment, whole, finished, failed⟩
        · cases whole
          cases finished
          exact Or.inl failed
        · cases whole
          rw [List.mapM_cons] at finished
          obtain ⟨result, between, made, later⟩ := exists_of_outcome_bind_eq_ok finished
          refine Or.inr ⟨result, between, made, ?_⟩
          obtain ⟨others, last, early, ends⟩ := exists_of_outcome_bind_eq_ok later
          cases ends
          rw [bind_pure_comp, outcome_map_eq_error_iff, ih]
          exact ⟨done, item, rest, others, moment, rfl, early, failed⟩

end Action

section

variable {evaluate : Evaluator}

/-- A sequence is the traversal of its forms, and fails where the traversal does. -/
theorem SpecialForm.evalSequence_eq_map
    (frame : FrameId)
    (forms : List Value) :
    evalSequence evaluate frame forms =
      (fun values => values.getLastD .nil) <$> forms.mapM (evaluate frame) := by
  fun_induction evalSequence evaluate frame forms with
  | case1 => rfl
  | case2 form => simp
  | case3 form forms several ih =>
      rw [ih, List.mapM_cons, map_bind]
      congr 1
      funext value
      cases forms with
      | nil => exact absurd rfl several
      | cons next others =>
          simp [List.mapM_cons]

namespace Eval

/-- The branch of a conditional that the value of its condition decides on. -/
def branch? (value : Value) : List Value → Option Value
  | [positive] => if value.isTruthy then some positive else none
  | [positive, negative] => some (if value.isTruthy then positive else negative)
  | _ => none

/-- What is left to be done with the values of the parts of a form that has parts. -/
def finish (evaluate : Evaluator) (frame : FrameId) : Value → List Value → Action Value
  | .list (head :: parts), values =>
    match SpecialForm.ofHead? head, parts, values with
    | none, _, function :: arguments => Call.apply evaluate function arguments
    | some .define, [.symbol name, _], [value] => do
      Action.define frame name value
      pure value
    | some .conditional, _ :: branches, [value] =>
      match branch? value branches with
      | some branch => evaluate frame branch
      | none => pure .nil
    | _, _, values => pure (values.getLastD .nil)
  | .map _, values => pure (.map (Entries.ofPairs (Entries.pairs values)))
  | _, values => pure (.vector values)

theorem length_of_branch?_eq_some
    {value branch : Value}
    {branches : List Value}
    (chosen : branch? value branches = some branch) :
    branches.length = 1 ∨ branches.length = 2 := by
  rw [branch?.eq_def] at chosen
  split at chosen
  · exact Or.inl rfl
  · exact Or.inr rfl
  · cases chosen

theorem evalConditional_eq_bind
    (frame : FrameId)
    (condition : Value)
    {branches : List Value}
    (formed : branches.length = 1 ∨ branches.length = 2) :
    SpecialForm.evalConditional evaluate frame (condition :: branches) =
      evaluate frame condition >>= fun value =>
        match branch? value branches with
        | some branch => evaluate frame branch
        | none => pure .nil := by
  rw [List.length_eq_one_iff, List.length_eq_two] at formed
  rcases formed with ⟨positive, rfl⟩ | ⟨positive, negative, rfl⟩
  all_goals
    rw [SpecialForm.evalConditional]
    congr 1
    funext value
    rw [branch?]
    split <;> rfl

/-- A form with parts has its parts evaluated in order, and then its own rule takes over. -/
theorem evalForm_eq_bind
    (frame : FrameId)
    {form : Value}
    (hasParts : form.orderedParts ≠ []) :
    evalForm evaluate frame form =
      form.orderedParts.mapM (evaluate frame) >>= finish evaluate frame form := by
  cases form with
  | list items =>
      cases items with
      | nil => exact absurd rfl hasParts
      | cons head parts =>
          rw [Value.orderedParts_list] at hasParts ⊢
          rw [evalForm, evalList]
          cases special : SpecialForm.ofHead? head with
          | none => simp [finish, special, List.mapM_cons]
          | some kind =>
              rw [special] at hasParts
              dsimp only at hasParts ⊢
              -- Local definitions and functions have no parts in this frame, nor has a
              -- special form with a wrong number of parts.
              split at hasParts
              · next plain => cases plain
              · next name form isDefine =>
                  cases isDefine
                  rw [Action.mapM_singleton_bind]
                  simp only [finish, special]
                  rfl
              · next isSequence =>
                  cases isSequence
                  show SpecialForm.evalSequence evaluate frame _ = _
                  rw [SpecialForm.evalSequence_eq_map, map_eq_pure_bind]
                  congr 1
                  funext values
                  simp only [finish, special]
              · next condition branches isConditional =>
                  cases isConditional
                  have formed : branches.length = 1 ∨ branches.length = 2 := by
                    by_contra malformed
                    exact hasParts (if_neg malformed)
                  rw [if_pos formed, Action.mapM_singleton_bind]
                  simp only [finish, special]
                  exact evalConditional_eq_bind frame condition formed
              · exact absurd rfl hasParts
  | vector items => rfl
  | map entries => exact evalForm_map evaluate frame entries
  | _ => exact absurd rfl hasParts

/-- When the parts of a form have values, it fails in a call or in a branch if at all. -/
theorem exists_of_finish_eq_error
    (frame : FrameId)
    {form : Value}
    (hasParts : form.orderedParts ≠ [])
    {values : List Value}
    {store after : Store}
    {fault : Fault}
    (fails : (finish evaluate frame form values).outcome store = some (.error fault, after)) :
    (∃ head parts function arguments,
      form = .list (head :: parts) ∧
        SpecialForm.ofHead? head = none ∧
        values = function :: arguments ∧
        (Call.apply evaluate function arguments).outcome store = some (.error fault, after)) ∨
      ∃ head condition branches value branch,
        form = .list (head :: condition :: branches) ∧
          SpecialForm.ofHead? head = some .conditional ∧
          values = [value] ∧
          branch? value branches = some branch ∧
          (evaluate frame branch).outcome store = some (.error fault, after) := by
  cases form with
  | list items =>
      cases items with
      | nil => exact absurd rfl hasParts
      | cons head parts =>
          simp only [finish] at fails
          split at fails
          · next function arguments plain =>
              exact Or.inl ⟨head, _, function, arguments, rfl, plain, rfl, fails⟩
          · cases fails
          · next condition branches value special =>
              split at fails
              · next branch chosen =>
                  exact Or.inr
                    ⟨head, condition, branches, value, branch, rfl, special, rfl, chosen, fails⟩
              · cases fails
          · cases fails
  | vector items => cases fails
  | map entries => cases fails
  | _ => exact absurd rfl hasParts

/-- A form without parts in its frame changes no frame that is there. -/
theorem respects_evalForm_of_noParts
    (confined : evaluate.IsConfined)
    (frame : FrameId)
    {form : Value}
    (noParts : form.orderedParts = []) :
    (evalForm evaluate frame form).Respects Store.Keeps := by
  intro store outcome after ends
  have evaluates := confined.evaluates store store.nextFrame fun _ => False
  have admits :
      (Assessment.confinement store store.nextFrame fun _ => False).Admits () frame form := by
    intro role part isPart
    cases role with
    | target => exact absurd noParts (isPart.orderedParts_ne_nil (Or.inr rfl))
    | here => exact absurd noParts (isPart.orderedParts_ne_nil (Or.inl rfl))
    | _ => trivial
  exact Evaluator.IsConfined.keeps_of_confinedSince
    (evaluates.evalForm_of_admits () trivial admits) ends

end Eval

end

namespace Eval

/--
The evaluation of a form in a frame, from a store on, comes to a last action in a
moment, and this action is what fails if the evaluation does.
-/
inductive Reaches (frame : FrameId) :
    (depth : Nat) →
    (form : Value) →
    (store : Store) →
    (last : Action Value) →
    (moment : Store) →
    Prop where
  /-- The parts before one have been evaluated, and now this one is. -/
  | part
      {depth : Nat}
      {form item : Value}
      {done rest values : List Value}
      {store between moment : Store}
      {last : Action Value}
      (parts : form.orderedParts = done ++ item :: rest)
      (finished : (done.mapM (eval depth frame)).outcome store = some (.ok values, between))
      (later : Reaches frame depth item between last moment) :
      Reaches frame (depth + 1) form store last moment
  /-- The condition has been evaluated, and now the branch that it decides on is. -/
  | branch
      {depth : Nat}
      {head condition value item : Value}
      {branches : List Value}
      {store between moment : Store}
      {last : Action Value}
      (special : SpecialForm.ofHead? head = some .conditional)
      (judged : (eval depth frame condition).outcome store = some (.ok value, between))
      (chosen : branch? value branches = some item)
      (later : Reaches frame depth item between last moment) :
      Reaches frame (depth + 1) (.list (head :: condition :: branches)) store last moment
  /-- A function and its arguments have been evaluated, and now the function is applied. -/
  | call
      {depth : Nat}
      {head function : Value}
      {parts arguments : List Value}
      {store moment : Store}
      (plain : SpecialForm.ofHead? head = none)
      (finished :
        ((head :: parts).mapM (eval depth frame)).outcome store =
          some (.ok (function :: arguments), moment)) :
      Reaches frame (depth + 1) (.list (head :: parts)) store
        (Call.apply (eval depth) function arguments) moment
  /-- A form without parts in the frame is evaluated. -/
  | alone
      {depth : Nat}
      {form : Value}
      {store : Store}
      (noParts : form.orderedParts = []) :
      Reaches frame (depth + 1) form store (eval (depth + 1) frame form) store

/-- The last action keeps every frame that is there in its moment. -/
theorem Reaches.keeps
    {frame : FrameId}
    {depth : Nat}
    {form : Value}
    {store moment : Store}
    {last : Action Value}
    (reaches : Reaches frame depth form store last moment) :
    last.Respects Store.Keeps := by
  induction reaches with
  | part _ _ _ ih => exact ih
  | branch _ _ _ _ ih => exact ih
  | call _ _ => exact (isConfined_eval _).respects_apply _ _
  | alone noParts => exact respects_evalForm_of_noParts (isConfined_eval _) frame noParts

/-- The fault of the last action is the fault of the whole evaluation. -/
theorem Reaches.fails
    {frame : FrameId}
    {depth : Nat}
    {form : Value}
    {store moment after : Store}
    {last : Action Value}
    {fault : Fault}
    (reaches : Reaches frame depth form store last moment)
    (ends : last.outcome moment = some (.error fault, after)) :
    (eval depth frame form).outcome store = some (.error fault, after) := by
  induction reaches with
  | @part depth form item done rest values store between moment last parts finished _ ih =>
      have hasParts : form.orderedParts ≠ [] := by
        rw [parts]
        exact List.append_ne_nil_of_right_ne_nil done (List.cons_ne_nil item rest)
      rw [eval_succ, evalForm_eq_bind frame hasParts, Action.outcome_bind_eq_error_iff,
        Action.outcome_mapM_eq_error_iff]
      exact Or.inl ⟨done, item, rest, values, between, parts, finished, ih ends⟩
  | @branch depth head condition value item branches store between moment last special judged
      chosen _ ih =>
      have formed := length_of_branch?_eq_some chosen
      have isConditional :
          evalForm (eval depth) frame (.list (head :: condition :: branches)) =
            SpecialForm.evalConditional (eval depth) frame (condition :: branches) := by
        rw [evalForm, evalList, special]
        rfl
      rw [eval_succ, isConditional, evalConditional_eq_bind frame condition formed,
        Action.outcome_bind_eq_error_iff]
      refine Or.inr ⟨value, between, judged, ?_⟩
      rw [chosen]
      exact ih ends
  | @call depth head function parts arguments store moment plain finished =>
      have isCall : (Value.list (head :: parts)).orderedParts = head :: parts := by
        rw [Value.orderedParts_list, plain]
      rw [eval_succ, evalForm_eq_bind frame (by rw [isCall]; exact List.cons_ne_nil _ _),
        Action.outcome_bind_eq_error_iff, isCall]
      refine Or.inr ⟨_, _, finished, ?_⟩
      simp only [finish, plain]
      exact ends
  | alone _ => exact ends

theorem exists_reaches_of_error
    {frame : FrameId}
    {depth : Nat}
    {form : Value}
    {store after : Store}
    {fault : Fault}
    (fails : (eval depth frame form).outcome store = some (.error fault, after)) :
    ∃ last moment,
      Reaches frame depth form store last moment ∧
        last.outcome moment = some (.error fault, after) := by
  induction depth generalizing form store with
  | zero => cases fails
  | succ depth ih =>
      by_cases noParts : form.orderedParts = []
      · exact ⟨_, store, .alone noParts, fails⟩
      -- Either a part fails, or the rule of the form does with the values of its parts.
      · rw [eval_succ, evalForm_eq_bind frame noParts, Action.outcome_bind_eq_error_iff,
          Action.outcome_mapM_eq_error_iff] at fails
        rcases fails with ⟨done, item, rest, values, between, parts, finished, failed⟩ |
          ⟨values, between, finished, failed⟩
        · obtain ⟨last, moment, later, ends⟩ := ih failed
          exact ⟨last, moment, .part parts finished later, ends⟩
        · rcases exists_of_finish_eq_error frame noParts failed with
            ⟨head, parts, function, arguments, rfl, plain, rfl, ends⟩ |
            ⟨head, condition, branches, value, branch, rfl, special, rfl, chosen, ends⟩
          · rw [Value.orderedParts_list, plain] at finished
            exact ⟨_, between, .call plain finished, ends⟩
          · rw [Value.orderedParts_list, special] at finished
            dsimp only at finished
            rw [if_pos (length_of_branch?_eq_some chosen)] at finished
            have judged := Action.outcome_of_mapM_singleton finished
            obtain ⟨last, moment, later, ends⟩ := ih ends
            exact ⟨last, moment, .branch special judged chosen later, ends⟩

end Eval

/--
An evaluation fails if and only if the last action that it comes to fails, and leaves what
that action leaves.
-/
theorem eval_fails_iff
    (frame : FrameId)
    (depth : Nat)
    (form : Value)
    (store after : Store)
    (fault : Fault) :
    (eval depth frame form).outcome store = some (.error fault, after) ↔
      ∃ last moment,
        Eval.Reaches frame depth form store last moment ∧
          last.outcome moment = some (.error fault, after) := by
  constructor
  · exact Eval.exists_reaches_of_error
  · rintro ⟨last, moment, reaches, ends⟩
    exact reaches.fails ends

end MiniLisp
