import MiniLisp.Proofs.Builtin.Faults
import MiniLisp.Proofs.Eval.FormParts
import MiniLisp.Proofs.Eval.Translation

/-!
# Judgements of two runs

This module supplies what can pass from the steps of an evaluation to the whole.

It is a judgement of two actions (`Judgement`), one of each of two runs.  It has one law for
each step of which the rules of evaluation are composed: a result and a fault, two actions
in a row, and the actions on the store.  It also says which forms and values of the two runs
correspond, and what is asked of a form in a place (`Conditions`).
-/

namespace MiniLisp

/-! ## Forms and values of two runs -/

/-- Which forms and values of two runs correspond, and what is asked of them. -/
structure Conditions where
  /-- What is known at a point of the two runs. -/
  World : Type
  Later : World → World → Prop
  later_refl : ∀ world, Later world world
  later_trans : ∀ {first second third}, Later first second → Later second third → Later first third
  translation : Translation
  /-- A frame of each run, in which forms that correspond are evaluated. -/
  Place : Type
  left : Place → FrameId
  right : Place → FrameId
  /-- Forms may be evaluated in the place. -/
  placed : World → Place → Prop
  /-- The forms correspond, if they stand in the place. -/
  form : World → Place → Value → Value → Prop
  /-- A form of the first run may have the role in the place. -/
  may : World → Place → Role → Value → Prop
  /-- The values correspond. -/
  value : World → Value → Value → Prop
  /-- The first run may fail so. -/
  allows : Fault → Prop
  placed_mono : ∀ {world later place}, Later world later → placed world place → placed later place
  form_mono :
    ∀ {world later place whole other},
      Later world later → form world place whole other → form later place whole other
  may_mono :
    ∀ {world later place role part},
      Later world later → may world place role part → may later place role part
  value_mono :
    ∀ {world later given other},
      Later world later → value world given other → value later given other
  form_symbol :
    ∀ {world place name other},
      form world place (.symbol name) other → other = .symbol (translation.name name)
  form_list :
    ∀ {world place items other},
      form world place (.list items) other →
        ∃ others, other = .list others ∧ List.Forall₂ (form world place) items others
  form_vector :
    ∀ {world place items other},
      form world place (.vector items) other →
        ∃ others, other = .vector others ∧ List.Forall₂ (form world place) items others
  form_map :
    ∀ {world place entries other},
      form world place (.map entries) other →
        ∃ others,
          other = .map others ∧ List.Forall₂ (EntriesRelated (form world place)) entries others
  form_comment :
    ∀ {world place text other}, form world place (.comment text) other → other = .comment text
  form_constant :
    ∀ {world place constant other},
      form world place constant other → constant.isConstant = true → other.isConstant = true
  form_ofHead? :
    ∀ {world place head other},
      form world place head other → SpecialForm.ofHead? other = SpecialForm.ofHead? head
  form_items? :
    ∀ {world place whole other},
      form world place whole other →
        Option.Rel (List.Forall₂ (form world place)) whole.items? other.items?
  form_describe :
    ∀ {world place whole other}, form world place whole other → other.describe = whole.describe
  form_bindingName :
    ∀ {world place whole other} (context : String),
      form world place whole other →
        ResultsAgree translation (fun name name' => name' = translation.name name)
          (whole.bindingName context) (other.bindingName context)
  form_parameters :
    ∀ {world place whole other} (context : String),
      form world place whole other →
        ResultsAgree translation
          (fun parameters parameters' => parameters' = parameters.rename translation.name)
          (Parameters.ofValue context whole) (Parameters.ofValue context other)
  value_nil : ∀ world, value world .nil .nil
  value_list :
    ∀ {world items others},
      List.Forall₂ (value world) items others → value world (.list items) (.list others)
  value_vector :
    ∀ {world items others},
      List.Forall₂ (value world) items others → value world (.vector items) (.vector others)
  value_map :
    ∀ {world pairs others},
      List.Forall₂ (EntriesRelated (value world)) pairs others →
        value world (.map (Entries.ofPairs pairs)) (.map (Entries.ofPairs others))
  value_constant :
    ∀ {world place constant other},
      form world place constant other → may world place .itself constant →
        constant.isConstant = true → value world constant other
  value_isTruthy :
    ∀ {world given other}, value world given other → other.isTruthy = given.isTruthy
  value_result :
    ∀ {world arguments others} (builtin : Builtin),
      List.Forall₂ (value world) arguments others →
        ResultsAgree translation (value world) (builtin.result arguments) (builtin.result others)
  value_written :
    ∀ {world arguments others} (builtin : Builtin),
      List.Forall₂ (value world) arguments others →
        builtin.written others = builtin.written arguments
  allows_ordinary : ∀ {fault}, fault.IsOrdinary → allows fault
  allows_comment :
    ∀ {world place text}, may world place .itself (.comment text) → allows (.ofComment text)

namespace Conditions

variable (conditions : Conditions)

/-- The parts of the form may have their roles in the place. -/
def Admits
    (world : conditions.World)
    (place : conditions.Place)
    (form : Value) :
    Prop :=
  ∀ ⦃role part⦄, form.HasPart role part → conditions.may world place role part

/-- The forms correspond in the place, and the first may have the role there. -/
structure Ready
    (world : conditions.World)
    (place : conditions.Place)
    (role : Role)
    (whole other : Value) :
    Prop where
  form : conditions.form world place whole other
  may : conditions.may world place role whole

/-- Both functions are applied in the same way. -/
inductive Applied (world : conditions.World) : Value → Value → Prop where
  | closure
      {identity identity' : Nat}
      {parameters parameters' : Parameters}
      {body body' : Value}
      {place : conditions.Place}
      (placed : conditions.placed world place)
      (same : parameters' = parameters.rename conditions.translation.name)
      (ready : conditions.Ready world place .inside body body') :
      Applied world
        (.closure identity parameters body (conditions.left place))
        (.closure identity' parameters' body' (conditions.right place))
  | homeless
      {identity identity' : Nat}
      {parameters parameters' : Parameters}
      {body body' : Value}
      (same : parameters' = parameters.rename conditions.translation.name)
      (allowed : conditions.allows (.internal .home)) :
      Applied world
        (.closure identity parameters body none) (.closure identity' parameters' body' none)
  | builtin
      (identity identity' : Nat)
      (builtin : Builtin) :
      Applied world (.native identity builtin) (.native identity' builtin)
  | foreign
      {identity identity' : Nat}
      {name name' : String}
      (allowed : conditions.allows (.internal .routine)) :
      Applied world (.native identity (.foreign name)) (.native identity' (.foreign name'))
  | other
      {value value' : Value}
      (plain : value.isFunction = false)
      (plain' : value'.isFunction = false)
      (same : value'.describe = value.describe) :
      Applied world value value'

/-- A place with new frames, below those of another place. -/
structure Opened
    (world : conditions.World)
    (place inner : conditions.Place) :
    Prop where
  placed : conditions.placed world inner
  form :
    ∀ {whole other},
      conditions.form world place whole other → conditions.form world inner whole other
  may : ∀ {part}, conditions.may world place .inside part → conditions.may world inner .here part
  target : ∀ name, conditions.may world inner .target (.symbol name)

variable
  {conditions : Conditions}
  {world later : conditions.World}
  {place inner : conditions.Place}
  {whole other : Value}

theorem Ready.mono
    {role : Role}
    (ready : conditions.Ready world place role whole other)
    (isLater : conditions.Later world later) :
    conditions.Ready later place role whole other :=
  ⟨conditions.form_mono isLater ready.form, conditions.may_mono isLater ready.may⟩

/-- What may be evaluated in frames below is evaluated in those that are opened. -/
theorem Opened.ready
    (opened : conditions.Opened later place inner)
    (isLater : conditions.Later world later)
    (ready : conditions.Ready world place .inside whole other) :
    conditions.Ready later inner .here whole other :=
  ⟨opened.form (ready.mono isLater).form, opened.may (ready.mono isLater).may⟩

end Conditions

/-- A judgement of two actions that every step of evaluation passes on. -/
structure Judgement extends Conditions where
  /-- The actions are as judged, and their results are related as given. -/
  holds :
    ∀ {Result : Type},
      World → (World → Result → Result → Prop) → Action Result → Action Result → Prop
  applied :
    ∀ {world function other}, value world function other → toConditions.Applied world function other
  pure :
    ∀ {Result : Type} {world} {related : World → Result → Result → Prop} {result other},
      related world result other → holds world related (pure result) (pure other)
  fail :
    ∀ {Result : Type} {world} {related : World → Result → Result → Prop} {fault},
      allows fault →
        holds world related (Action.fail fault) (Action.fail (fault.rename translation.name))
  bind :
    ∀ {First Second : Type} {world}
      {early : World → First → First → Prop} {late : World → Second → Second → Prop}
      {action other} {next following : First → Action Second},
      holds world early action other →
        (∀ later result result',
          Later world later → early later result result' →
            holds later late (next result) (following result')) →
          holds world late (action >>= next) (other >>= following)
  lookup :
    ∀ {world place name},
      placed world place →
        form world place (.symbol name) (.symbol (translation.name name)) →
          may world place .itself (.symbol name) →
            holds world value (Action.lookup (left place) name)
              (Action.lookup (right place) (translation.name name))
  define :
    ∀ {world place name given other},
      placed world place → may world place .target (.symbol name) → value world given other →
        holds world (fun _ _ _ => True) (Action.define (left place) name given)
          (Action.define (right place) (translation.name name) other)
  openFrame :
    ∀ {world place pairs others},
      placed world place →
        List.Forall₂ (Parameters.BindingsAgree translation (value world)) pairs others →
          holds world
            (fun later frame frame' =>
              ∃ inner,
                left inner = frame ∧ right inner = frame' ∧ toConditions.Opened later place inner)
            (Action.openFrame (left place) (Bindings.ofPairs pairs))
            (Action.openFrame (right place) (Bindings.ofPairs others))
  makeClosure :
    ∀ {world place names parameters body other},
      placed world place → Parameters.ofNames? names = some parameters →
        toConditions.Ready world place .body body other →
          holds world value (Action.makeClosure parameters body (left place))
            (Action.makeClosure (parameters.rename translation.name) other (right place))
  write :
    ∀ {world} (text : String),
      holds world (fun _ _ _ => True) (Action.write text) (Action.write text)

end MiniLisp
