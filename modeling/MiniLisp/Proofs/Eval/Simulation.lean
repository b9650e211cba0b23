import MiniLisp.Proofs.Builtin.Agreement
import MiniLisp.Proofs.Eval.Effects
import MiniLisp.Proofs.Eval.Parameters

/-!
# Evaluation in two runs

This module shows that forms which are alike evaluate alike in two runs that
correspond: to the same depth, with the same text written, and with the same fault
or with values that match (`isFaithful_eval`).

The only condition is that a form binds no names in frames that stand for more
than one frame of the other run.  Local definitions and calls open frames of their
own, in both runs at once, so the condition is about the form itself and not about
the functions that it calls.

Forms stand in paired frames (`TwoRuns.conditions`), and that actions agree is a
judgement of the two runs (`TwoRuns.simulation`).
-/

namespace MiniLisp

open MiniLisp.Value (Matches)

namespace TwoRuns

/-- Names may be bound in the paired frames, or the form binds none there. -/
def MayEvaluate (scope : Scope) (form : Value) : Prop :=
  scope.writable ∨ form.definedNames = []

/-- Forms that are alike evaluate alike in frames that are paired for their names. -/
def IsFaithful (runs : TwoRuns) (evaluate : Evaluator) : Prop :=
  ∀ pairing left right scope form other,
    pairing left right scope → MayEvaluate scope form →
      form.Alike runs.toTranslation pairing scope.names other →
        runs.Agree pairing (Matches runs.toTranslation)
          (evaluate left form) (evaluate right other)

section

variable
  {runs : TwoRuns}
  {pairing : Pairing}
  {left right : FrameId}
  {scope : Scope}

theorem MayEvaluate.part
    {whole part : Value}
    (may : MayEvaluate scope whole)
    (isPart : whole.HasPart .here part) :
    MayEvaluate scope part := by
  rcases may with writable | nothing
  · exact Or.inl writable
  · refine Or.inr (List.eq_nil_iff_forall_not_mem.2 fun name defined => ?_)
    have inWhole := isPart.definedNames_subset defined
    rw [nothing] at inWhole
    cases inWhole

theorem MayEvaluate.writable
    {whole part : Value}
    (may : MayEvaluate scope whole)
    (isTarget : whole.HasPart .target part) :
    scope.writable := by
  rcases may with writable | nothing
  · exact writable
  · obtain ⟨name, -, defined⟩ := isTarget.exists_mem_definedNames
    rw [nothing] at defined
    cases defined

theorem IsFaithful.forms
    {evaluate : Evaluator}
    (faithful : runs.IsFaithful evaluate)
    (paired : pairing left right scope)
    {wider : Pairing}
    (widens : pairing ≤ wider)
    {form other : Value}
    (may : MayEvaluate scope form)
    (alike : form.Alike runs.toTranslation pairing scope.names other) :
    runs.Agree wider (Matches runs.toTranslation) (evaluate left form) (evaluate right other) :=
  faithful wider left right scope form other (widens _ _ _ paired) may
    (alike.mono widens)

/-! ## Actions on the store -/

theorem agree_lookup
    (paired : pairing left right scope)
    {name : String}
    (isName : scope.names name) :
    runs.Agree pairing (Matches runs.toTranslation)
      (Action.lookup left name) (Action.lookup right (runs.name name)) := by
  intro first second corresponds
  rw [Action.outcome_lookup, Action.outcome_lookup]
  have found := corresponds.lookup? paired isName
  generalize first.lookup? left name = value at found
  generalize second.lookup? right (runs.name name) = value' at found
  have widens : pairing ≤ pairing := le_rfl
  cases found with
  | none => exact .ended widens corresponds (.fault (.unbound name))
  | some same => exact .ended widens corresponds (.result same)

theorem agree_define
    (paired : pairing left right scope)
    (writable : scope.writable)
    (name : String)
    {value other : Value}
    (same : value.Matches runs.toTranslation pairing other) :
    runs.Agree pairing (fun _ _ _ => True)
      (Action.define left name value) (Action.define right (runs.name name) other) := by
  intro first second corresponds
  rw [Action.outcome_define, Action.outcome_define]
  exact .ended le_rfl (corresponds.define paired writable name same)
    (.result trivial)

theorem agree_write (text : String) :
    runs.Agree pairing (fun _ _ _ => True) (Action.write text) (Action.write text) := by
  intro first second corresponds
  rw [Action.outcome_write, Action.outcome_write]
  exact .ended le_rfl (corresponds.write text) (.result trivial)

/-- New closures of paired frames match. -/
theorem agree_makeClosure
    (paired : pairing left right scope)
    (parameters : Parameters)
    {body other : Value}
    (alike : body.Alike runs.toTranslation pairing scope.names other) :
    runs.Agree pairing (Matches runs.toTranslation)
      (Action.makeClosure parameters body left)
      (Action.makeClosure (parameters.rename runs.name) other right) := by
  intro first second corresponds
  rw [Action.outcome_makeClosure, Action.outcome_makeClosure]
  refine .ended le_rfl corresponds.addFunction (.result ?_)
  rw [← corresponds.function_next]
  exact Value.alike_closure_iff.2 ⟨other, some right, scope, rfl, .paired paired, alike⟩

/-- Frames that are opened in both runs at once are paired with each other alone. -/
theorem agree_openFrame
    (paired : pairing left right scope)
    {bindings bindings' : Bindings}
    (bound :
      ∀ name,
        Option.Rel (Matches runs.toTranslation pairing)
          (bindings.get? name) (bindings'.get? (runs.name name))) :
    runs.Agree pairing (fun wider inner inner' => wider inner inner' ⟨scope.names, True⟩)
      (Action.openFrame left bindings) (Action.openFrame right bindings') := by
  intro first second corresponds
  rw [Action.outcome_openFrame, Action.outcome_openFrame]
  have widens := pairing.le_add first.nextFrame second.nextFrame ⟨scope.names, True⟩
  have pairedNew :
      (pairing.add first.nextFrame second.nextFrame ⟨scope.names, True⟩)
        first.nextFrame second.nextFrame ⟨scope.names, True⟩ :=
    Or.inr ⟨rfl, rfl, rfl⟩
  exact .ended widens (corresponds.addFrame paired bound) (.result pairedNew)

end

end TwoRuns

/-! ## Forms that are alike -/

namespace Value

variable
  {translation : Translation}
  {pairing : Pairing}
  {names : String → Prop}

/-- Both runs take the same lists for special forms. -/
theorem Alike.ofHead?_eq
    {head other : Value}
    (alike : head.Alike translation pairing names other) :
    SpecialForm.ofHead? other = SpecialForm.ofHead? head := by
  by_cases isSymbol : ∃ name, head = .symbol name
  · obtain ⟨name, rfl⟩ := isSymbol
    obtain ⟨-, rfl⟩ := alike_symbol_iff.1 alike
    exact translation.ofName?_name name
  · have none {head : Value} (noSymbol : ¬ ∃ name, head = .symbol name) :
        SpecialForm.ofHead? head = none := by
      cases special : SpecialForm.ofHead? head with
      | none => rfl
      | some form => exact absurd (exists_symbol_of_ofHead? special) noSymbol
    rw [none isSymbol, none]
    rintro ⟨name, rfl⟩
    exact isSymbol (exists_symbol_of_alike alike)

theorem readsSurface_isConstant : ReadsSurface isConstant where

/-- Values that evaluate to themselves have no symbols of their own. -/
theorem Alike.matches_of_isConstant
    {constant other : Value}
    (alike : constant.Alike translation pairing names other)
    (isConstant : constant.isConstant = true) :
    constant.Matches translation pairing other := by
  cases constant with
  | symbol => cases isConstant
  | list => cases isConstant
  | vector => cases isConstant
  | map => cases isConstant
  | comment => cases isConstant
  | closure => exact alike_closure_iff.2 (alike_closure_iff.1 alike)
  | _ => exact alike

end Value

/-! ## Evaluation -/

namespace TwoRuns

/-- A frame of each run, and in what respect they stand for each other. -/
structure FramePair where
  left : FrameId
  right : FrameId
  scope : Scope

/-- Forms are alike for the names of the frames that they stand in, and values match. -/
def conditions (runs : TwoRuns) : Conditions where
  World := Pairing
  Later := (· ≤ ·)
  later_refl := le_refl
  later_trans := le_trans
  translation := runs.toTranslation
  Place := FramePair
  left := FramePair.left
  right := FramePair.right
  placed := fun pairing frames => pairing frames.left frames.right frames.scope
  form := fun pairing frames => Value.Alike runs.toTranslation pairing frames.scope.names
  may := fun _ frames role part =>
    match role with
    | .target => frames.scope.writable
    | .here => MayEvaluate frames.scope part
    | _ => True
  value := Matches runs.toTranslation
  allows := fun _ => True
  placed_mono := fun widens paired => widens _ _ _ paired
  form_mono := fun widens alike => alike.mono widens
  may_mono := fun _ may => may
  value_mono := fun widens same => same.mono widens
  form_symbol := fun alike => (Value.alike_symbol_iff.1 alike).2
  form_list := Value.alike_list_iff.1
  form_vector := Value.alike_vector_iff.1
  form_map := Value.alike_map_iff.1
  form_comment := by
    rintro _ _ _ _ ⟨⟩
    rfl
  form_constant := fun alike isConstant =>
    alike.read_eq Value.readsSurface_isConstant ▸ isConstant
  form_ofHead? := Value.Alike.ofHead?_eq
  form_items? := Value.Alike.items?
  form_describe := fun alike => alike.describe_eq.symm
  form_bindingName := fun context alike => Value.agree_bindingName context alike
  form_parameters := fun context alike => Parameters.agree_ofValue context alike
  value_nil := fun _ => rfl
  value_list := fun same => Value.alike_list_iff.2 ⟨_, rfl, same⟩
  value_vector := fun same => Value.alike_vector_iff.2 ⟨_, rfl, same⟩
  value_map := fun same => Value.alike_map_iff.2 ⟨_, rfl, Entries.forall₂_ofPairs same⟩
  value_constant := fun alike _ isConstant => alike.matches_of_isConstant isConstant
  value_isTruthy := fun same => (same.read_eq Value.readsSurface_isTruthy).symm
  value_result := fun builtin same => builtin.agree_result same
  value_written := fun builtin same => (builtin.written_eq same).symm
  allows_ordinary := fun _ => trivial
  allows_comment := fun _ => trivial

variable {runs : TwoRuns}

theorem applied
    {pairing : Pairing}
    {function other : Value}
    (same : function.Matches runs.toTranslation pairing other) :
    runs.conditions.Applied pairing function other := by
  have describe := same.describe_eq.symm
  have isFunction := same.read_eq Value.readsSurface_isFunction
  cases function with
  | closure identity parameters body home =>
      obtain ⟨body', home', scope, rfl, homes, alike⟩ := Value.alike_closure_iff.1 same
      cases homes with
      | @paired left right _ paired =>
          let frames : FramePair := ⟨left, right, scope⟩
          have ready : runs.conditions.Ready pairing frames .inside body body' := ⟨alike, trivial⟩
          exact .closure paired rfl ready
      | homeless => exact .homeless rfl trivial
  | native identity routine =>
      cases Value.alike_native_iff.1 same
      cases routine with
      | builtin builtin => exact .builtin identity _ builtin
      | foreign name => exact .foreign trivial
  | _ => exact .other rfl isFunction.symm describe

private theorem opened
    {pairing : Pairing}
    {frames : FramePair}
    {inner inner' : FrameId}
    (paired : pairing inner inner' ⟨frames.scope.names, True⟩) :
    runs.conditions.Opened pairing frames ⟨inner, inner', frames.scope.names, True⟩ where
  placed := paired
  form := id
  may := fun _ => Or.inl trivial
  target := fun _ => trivial

variable (runs)

/-- Actions agree. -/
def simulation : Judgement where
  toConditions := runs.conditions
  holds := runs.Agree
  applied := applied
  pure := Agree.pure
  fail := fun _ => Agree.fail rfl
  bind := Agree.bind
  lookup := by
    rintro pairing frames name paired ⟨isName, -⟩ -
    exact agree_lookup paired isName
  define := fun paired writable same => agree_define paired writable _ same
  openFrame := by
    intro pairing frames pairs others paired same
    apply (agree_openFrame paired (Bindings.optionRel_get?_ofPairs same)).mono
    exact fun wider inner inner' pairedInner => ⟨_, rfl, rfl, opened pairedInner⟩
  makeClosure := fun paired _ ready => agree_makeClosure paired _ ready.form
  write := agree_write

theorem passesToParts_simulation : runs.simulation.PassesToParts := by
  intro pairing frames form may role part isPart
  cases role with
  | target => exact MayEvaluate.writable may isPart
  | here => exact MayEvaluate.part may isPart
  | _ => trivial

theorem isFaithful_eval (depth : Nat) : runs.IsFaithful (eval depth) := by
  have evaluates := Judgement.evaluates_eval runs.passesToParts_simulation
    (fun _ => Agree.tooDeep) depth
  intro pairing left right scope form other paired may alike
  let frames : FramePair := ⟨left, right, scope⟩
  have placed : runs.conditions.placed pairing frames := paired
  exact evaluates placed ⟨alike, may⟩

variable {runs}

/-- Functions that match are applied alike. -/
theorem agree_apply
    {evaluate : Evaluator}
    {pairing : Pairing}
    (faithful : runs.IsFaithful evaluate)
    {function function' : Value}
    (functions : function.Matches runs.toTranslation pairing function')
    {arguments others : List Value}
    (same : List.Forall₂ (Matches runs.toTranslation pairing) arguments others) :
    runs.Agree pairing (Matches runs.toTranslation)
      (Call.apply evaluate function arguments) (Call.apply evaluate function' others) := by
  have evaluates : runs.simulation.Evaluates evaluate evaluate := by
    intro pairing frames form other paired ready
    exact faithful pairing _ _ frames.scope form other paired ready.may ready.form
  exact Judgement.holds_apply evaluates functions same

end TwoRuns

end MiniLisp
