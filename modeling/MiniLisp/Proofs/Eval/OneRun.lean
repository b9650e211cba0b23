import MiniLisp.Proofs.Builtin.Yields
import MiniLisp.Proofs.Eval.Rules

/-!
# The rules of evaluation in a single run

This module goes through the rules of evaluation for what is said of a single run.

A property of values is handed on if all that is made of good values is good (`OneRun`).
Forms and good values then correspond to themselves, under the same names and in the same
frames (`OneRun.toConditions`), and functions are applied like themselves
(`OneRun.applied`).

What is said of a single action, and passes on from step to step (`Assessment`), is judged
of the action beside itself (`Assessment.judgement`).  So it holds of evaluation if it
holds of the steps (`Assessment.evaluates_eval`).
-/

namespace MiniLisp

/--
A property of the values of a single run, and what is asked of its forms.  Nothing is
asked, and no property is meant, unless it is said.
-/
structure OneRun where
  World : Type := Unit
  Later : World → World → Prop := fun _ _ => True
  later_refl : ∀ world, Later world world := by
    intros; trivial
  later_trans :
    ∀ {first second third}, Later first second → Later second third → Later first third := by
    intros; trivial
  placed : World → FrameId → Prop := fun _ _ => True
  may : World → FrameId → Role → Value → Prop := fun _ _ _ _ => True
  /-- The run makes good values of good values. -/
  good : World → Value → Prop := fun _ _ => True
  allows : Fault → Prop := fun _ => True
  placed_mono :
    ∀ {world later frame}, Later world later → placed world frame → placed later frame := by
    intros; trivial
  may_mono :
    ∀ {world later frame role part},
      Later world later → may world frame role part → may later frame role part := by
    intros; trivial
  good_mono :
    ∀ {world later value}, Later world later → good world value → good later value := by
    intros; trivial
  good_of_yields :
    ∀ {world arguments value},
      Builtin.Yields arguments value →
        (∀ argument ∈ arguments, good world argument) → good world value := by
    intros; trivial
  good_vector :
    ∀ {world items}, (∀ item ∈ items, good world item) → good world (.vector items) := by
    intros; trivial
  good_map :
    ∀ {world pairs},
      (∀ pair ∈ pairs, good world pair.1 ∧ good world pair.2) →
        good world (.map (Entries.ofPairs pairs)) := by
    intros; trivial
  good_constant :
    ∀ {world frame constant},
      may world frame .itself constant → constant.isConstant = true → good world constant := by
    intros; trivial
  closure :
    ∀ {world identity parameters body home},
      good world (.closure identity parameters body (some home)) →
        placed world home ∧ may world home .inside body := by
    intros; exact ⟨trivial, trivial⟩
  homeless :
    ∀ {world identity parameters body},
      good world (.closure identity parameters body none) → allows (.internal .home) := by
    intros; trivial
  foreign :
    ∀ {world identity name},
      good world (.native identity (.foreign name)) → allows (.internal .routine) := by
    intros; trivial
  allows_ordinary : ∀ {fault}, fault.IsOrdinary → allows fault := by
    intros; trivial
  allows_comment :
    ∀ {world frame text},
      may world frame .itself (.comment text) → allows (.ofComment text) := by
    intros; trivial

namespace OneRun

variable (run : OneRun)

/-- A good value, in the place of itself. -/
def Same (world : run.World) (value other : Value) : Prop :=
  other = value ∧ run.good world value

variable {run} {world : run.World}

theorem same_of_forall₂
    {values others : List Value}
    (same : List.Forall₂ (run.Same world) values others) :
    others = values ∧ ∀ value ∈ values, run.good world value := by
  induction same with
  | nil => exact ⟨rfl, List.forall_mem_nil _⟩
  | cons head tail ih =>
      obtain ⟨rfl, good⟩ := head
      obtain ⟨rfl, areGood⟩ := ih
      exact ⟨rfl, List.forall_mem_cons.2 ⟨good, areGood⟩⟩

theorem same_of_forall₂_entries
    {pairs others : List (Value × Value)}
    (same : List.Forall₂ (EntriesRelated (run.Same world)) pairs others) :
    others = pairs ∧ ∀ pair ∈ pairs, run.good world pair.1 ∧ run.good world pair.2 := by
  induction same with
  | nil => exact ⟨rfl, List.forall_mem_nil _⟩
  | cons head tail ih =>
      obtain ⟨⟨sameKey, goodKey⟩, sameValue, goodValue⟩ := head
      obtain ⟨rfl, areGood⟩ := ih
      exact ⟨congrArg (· :: _) (Prod.ext sameKey sameValue),
        List.forall_mem_cons.2 ⟨⟨goodKey, goodValue⟩, areGood⟩⟩

theorem same_of_forall₂_bindings
    {pairs others : List (String × Value)}
    (same : List.Forall₂ (Parameters.BindingsAgree .same (run.Same world)) pairs others) :
    others = pairs ∧ ∀ pair ∈ pairs, run.good world pair.2 := by
  induction same with
  | nil => exact ⟨rfl, List.forall_mem_nil _⟩
  | cons head tail ih =>
      obtain ⟨sameName, sameValue, good⟩ := head
      obtain ⟨rfl, areGood⟩ := ih
      exact ⟨congrArg (· :: _) (Prod.ext sameName sameValue),
        List.forall_mem_cons.2 ⟨good, areGood⟩⟩

theorem forall₂_same
    {values : List Value}
    (good : ∀ value ∈ values, run.good world value) :
    List.Forall₂ (run.Same world) values values :=
  List.forall₂_same.2 fun value member => ⟨rfl, good value member⟩

variable (run)

/-- Forms and good values of the run correspond to themselves. -/
def toConditions : Conditions where
  World := run.World
  Later := run.Later
  later_refl := run.later_refl
  later_trans := run.later_trans
  translation := .same
  Place := FrameId
  left := id
  right := id
  placed := run.placed
  form := fun _ _ whole other => other = whole
  may := run.may
  value := run.Same
  allows := run.allows
  placed_mono := run.placed_mono
  form_mono := fun _ same => same
  may_mono := run.may_mono
  value_mono := fun isLater same => ⟨same.1, run.good_mono isLater same.2⟩
  form_symbol := fun same => same
  form_list := fun same => ⟨_, same, List.forall₂_same.2 fun _ _ => rfl⟩
  form_vector := fun same => ⟨_, same, List.forall₂_same.2 fun _ _ => rfl⟩
  form_map := fun same => ⟨_, same, List.forall₂_same.2 fun _ _ => ⟨rfl, rfl⟩⟩
  form_comment := fun same => same
  form_constant := fun same isConstant => same ▸ isConstant
  form_ofHead? := congrArg SpecialForm.ofHead?
  form_items? := by
    rintro _ _ _ whole rfl
    cases whole.items? with
    | none => exact .none
    | some items => exact .some (List.forall₂_same.2 fun _ _ => rfl)
  form_describe := congrArg Value.describe
  form_bindingName := by
    rintro _ _ _ whole context rfl
    exact .same fun _ _ => rfl
  form_parameters := by
    rintro _ _ _ whole context rfl
    exact .same fun parameters _ => parameters.rename_id.symm
  value_nil := by
    intro world
    have yields : Builtin.Yields [] .nil := .nil
    exact ⟨rfl, run.good_of_yields yields (List.forall_mem_nil _)⟩
  value_list := by
    intro world items others same
    obtain ⟨rfl, good⟩ := same_of_forall₂ same
    exact ⟨rfl, run.good_of_yields .list good⟩
  value_vector := by
    intro world items others same
    obtain ⟨rfl, good⟩ := same_of_forall₂ same
    exact ⟨rfl, run.good_vector good⟩
  value_map := by
    intro world pairs others same
    obtain ⟨rfl, good⟩ := same_of_forall₂_entries same
    exact ⟨rfl, run.good_map good⟩
  value_constant := fun same may isConstant => ⟨same, run.good_constant may isConstant⟩
  value_isTruthy := fun same => congrArg Value.isTruthy same.1
  value_result := by
    intro world arguments others builtin same
    obtain ⟨rfl, good⟩ := same_of_forall₂ same
    refine .same fun value success => ⟨rfl, ?_⟩
    exact run.good_of_yields (Builtin.yields_of_result success) good
  value_written := by
    intro world arguments others builtin same
    rw [(same_of_forall₂ same).1]
  allows_ordinary := run.allows_ordinary
  allows_comment := run.allows_comment

variable {run}

theorem applied
    {function other : Value}
    (same : run.Same world function other) :
    run.toConditions.Applied world function other := by
  obtain ⟨rfl, good⟩ := same
  cases other with
  | closure identity parameters body home =>
      cases home with
      | some home =>
          obtain ⟨placed, may⟩ := run.closure good
          have ready : run.toConditions.Ready world home .inside body body := ⟨rfl, may⟩
          exact .closure placed parameters.rename_id.symm ready
      | none => exact .homeless parameters.rename_id.symm (run.homeless good)
  | native identity routine =>
      cases routine with
      | builtin builtin => exact .builtin identity identity builtin
      | foreign name => exact .foreign (run.foreign good)
  | _ => exact .other rfl rfl rfl

variable (run)

/-- A frame below another one, for forms that run inside. -/
structure Opened
    (world : run.World)
    (frame inner : FrameId) :
    Prop where
  placed : run.placed world inner
  may : ∀ {part}, run.may world frame .inside part → run.may world inner .here part
  target : ∀ name, run.may world inner .target (.symbol name)

variable {run}

theorem Opened.toConditions
    {frame inner : FrameId}
    (opened : run.Opened world frame inner) :
    run.toConditions.Opened world frame inner where
  placed := opened.placed
  form := id
  may := opened.may
  target := opened.target

end OneRun

/-! ## Assessments of actions -/

/-- An assessment of a single action that every step of evaluation passes on. -/
structure Assessment extends OneRun where
  /-- The action is as assessed, and its result has a given property. -/
  holds : ∀ {Result : Type}, World → (World → Result → Prop) → Action Result → Prop
  pure :
    ∀ {Result : Type} {world} {property : World → Result → Prop} {result},
      property world result → holds world property (pure result)
  fail :
    ∀ {Result : Type} {world fault} (property : World → Result → Prop),
      allows fault → holds world property (Action.fail fault)
  bind :
    ∀ {First Second : Type} {world}
      {early : World → First → Prop} {late : World → Second → Prop}
      {action} {next : First → Action Second},
      holds world early action →
        (∀ later result,
          Later world later → early later result → holds later late (next result)) →
          holds world late (action >>= next)
  lookup :
    ∀ {world frame name},
      may world frame .itself (.symbol name) → holds world good (Action.lookup frame name)
  define :
    ∀ {world frame name value},
      may world frame .target (.symbol name) → good world value →
        holds world (fun _ _ => True) (Action.define frame name value)
  openFrame :
    ∀ {world frame pairs},
      placed world frame → (∀ pair : String × Value, pair ∈ pairs → good world pair.2) →
        holds world (fun later inner => toOneRun.Opened later frame inner)
          (Action.openFrame frame (Bindings.ofPairs pairs))
  makeClosure :
    ∀ {world frame names parameters body},
      placed world frame → Parameters.ofNames? names = some parameters →
        may world frame .body body →
          holds world good (Action.makeClosure parameters body frame)
  write :
    ∀ {world} (text : String),
      holds world (fun _ _ => True) (Action.write text)

namespace Assessment

variable
  {assessment : Assessment}
  {evaluate : Evaluator}
  {world : assessment.World}

theorem mono
    {Result : Type}
    {property weaker : assessment.World → Result → Prop}
    {action : Action Result}
    (holds : assessment.holds world property action)
    (implies : ∀ later result, property later result → weaker later result) :
    assessment.holds world weaker action := by
  rw [← bind_pure action]
  exact assessment.bind holds fun later result _ has => assessment.pure (implies later result has)

variable (assessment)

/-- An action is judged beside itself as it is assessed. -/
def judgement : Judgement where
  toConditions := assessment.toConditions
  holds := fun world related action _ =>
    assessment.holds world (fun later result => ∃ other, related later result other) action
  applied := OneRun.applied
  pure := fun related => assessment.pure ⟨_, related⟩
  fail := fun allows => assessment.fail _ allows
  bind := fun holds rest =>
    assessment.bind holds fun later result isLater ⟨other, related⟩ =>
      rest later result other isLater related
  lookup := fun _ _ may => mono (assessment.lookup may) fun _ value good => ⟨value, rfl, good⟩
  define := fun _ may related =>
    mono (assessment.define may related.2) fun _ _ _ => ⟨(), trivial⟩
  openFrame := by
    intro world frame pairs others placed bound
    obtain ⟨-, good⟩ := OneRun.same_of_forall₂_bindings bound
    apply mono (assessment.openFrame placed good)
    exact fun later inner opened => ⟨inner, inner, rfl, rfl, opened.toConditions⟩
  makeClosure := fun placed denoted ready =>
    mono (assessment.makeClosure placed denoted ready.may) fun _ value good => ⟨value, rfl, good⟩
  write := fun text => mono (assessment.write text) fun _ _ _ => ⟨(), trivial⟩

/-- Forms are evaluated as assessed. -/
def Evaluates (evaluate : Evaluator) : Prop :=
  ∀ world ⦃frame form⦄,
    assessment.placed world frame → assessment.may world frame .here form →
      assessment.holds world assessment.good (evaluate frame form)

/-- The parts of the form may have their roles in the frame. -/
def Admits
    (world : assessment.World)
    (frame : FrameId)
    (form : Value) :
    Prop :=
  ∀ ⦃role part⦄, form.HasPart role part → assessment.may world frame role part

/-- What may be evaluated asks of its parts what they need. -/
def PassesToParts : Prop :=
  ∀ ⦃world frame form⦄, assessment.may world frame .here form → assessment.Admits world frame form

variable {assessment}

theorem good_of_judged
    {action : Action Value}
    (judged : assessment.judgement.holds world assessment.judgement.value action action) :
    assessment.holds world assessment.good action :=
  mono judged fun _ _ ⟨_, _, good⟩ => good

namespace Evaluates

theorem judged (evaluates : assessment.Evaluates evaluate) :
    assessment.judgement.Evaluates evaluate evaluate :=
  fun world _ _ _ placed ready =>
    mono (evaluates world placed ready.may) fun _ value good => ⟨value, rfl, good⟩

/-- Good functions are applied as assessed. -/
theorem apply
    (evaluates : assessment.Evaluates evaluate)
    (world : assessment.World)
    {function : Value}
    (goodFunction : assessment.good world function)
    {arguments : List Value}
    (good : ∀ argument ∈ arguments, assessment.good world argument) :
    assessment.holds world assessment.good (Call.apply evaluate function arguments) := by
  have functions : assessment.Same world function function := ⟨rfl, goodFunction⟩
  exact good_of_judged
    (Judgement.holds_apply evaluates.judged functions (OneRun.forall₂_same good))

theorem evalForm_of_admits
    (evaluates : assessment.Evaluates evaluate)
    (world : assessment.World)
    {frame : FrameId}
    (placed : assessment.placed world frame)
    {form : Value}
    (admits : assessment.Admits world frame form) :
    assessment.holds world assessment.good (Eval.evalForm evaluate frame form) :=
  good_of_judged (Judgement.holds_evalForm evaluates.judged placed rfl admits)

/-- One more level of evaluation is as assessed, if the evaluation of the parts is. -/
theorem evalForm
    (evaluates : assessment.Evaluates evaluate)
    (passes : assessment.PassesToParts) :
    assessment.Evaluates (Eval.evalForm evaluate) :=
  fun world _ _ placed may => evaluates.evalForm_of_admits world placed (passes may)

end Evaluates

/-- Evaluation to every depth is as assessed, if there is nothing against a lack of depth. -/
theorem evaluates_eval
    (passes : assessment.PassesToParts)
    (tooDeep : ∀ world, assessment.holds world assessment.good Action.tooDeep)
    (depth : Nat) :
    assessment.Evaluates (eval depth) := by
  induction depth with
  | zero => exact fun world _ _ _ _ => tooDeep world
  | succ depth ih => exact ih.evalForm passes

end Assessment

end MiniLisp
