import MiniLisp.Proofs.Eval.Judgement
import MiniLisp.Proofs.Eval.ParameterLists

/-!
# The rules of evaluation

This module goes through the rules of evaluation, once for every judgement.

What a form needs is asked of its parts, of each in its role (`Value.HasPart`).  If the
judgement holds of the evaluation of the parts, it holds of the evaluation of the form
(`Judgement.holds_evalForm`), and so of evaluation to every depth
(`Judgement.evaluates_eval`).
-/

namespace MiniLisp

namespace Judgement

variable (judgement : Judgement)

/-- Forms that correspond and may be evaluated are evaluated as judged. -/
def Evaluates (evaluate other : Evaluator) : Prop :=
  ∀ ⦃world place form form'⦄,
    judgement.placed world place → judgement.Ready world place .here form form' →
      judgement.holds world judgement.value
        (evaluate (judgement.left place) form) (other (judgement.right place) form')

variable
  {judgement : Judgement}
  {evaluate other : Evaluator}
  {world : judgement.World}
  {place : judgement.Place}

/-! ## Actions in a row -/

theorem holds_ofExcept
    {Result : Type}
    {related : judgement.World → Result → Result → Prop}
    {result result' : Except Fault Result}
    (ordinarily : FailsOrdinarily result)
    (agree : ResultsAgree judgement.translation (related world) result result') :
    judgement.holds world related (Action.ofExcept result) (Action.ofExcept result') := by
  cases agree with
  | fault fault => exact judgement.fail (judgement.allows_ordinary (ordinarily fault rfl))
  | result holds => exact judgement.pure holds

theorem holds_mapM
    {First First' Second : Type}
    {related : judgement.World → Second → Second → Prop}
    (mono :
      ∀ {world later result result'},
        judgement.Later world later → related world result result' → related later result result')
    {action : First → Action Second}
    {action' : First' → Action Second}
    {items : List First}
    {others : List First'}
    (each :
      List.Forall₂
        (fun item item' =>
          ∀ later, judgement.Later world later →
            judgement.holds later related (action item) (action' item'))
        items others) :
    judgement.holds world (fun later => List.Forall₂ (related later))
      (items.mapM action) (others.mapM action') := by
  induction items generalizing world others with
  | nil =>
      cases each
      rw [List.mapM_nil]
      exact judgement.pure .nil
  | cons item items ih =>
      rcases each with _ | ⟨head, tail⟩
      rw [List.mapM_cons, List.mapM_cons]
      apply judgement.bind (head world (judgement.later_refl world))
      intro later result result' isLater holds
      apply judgement.bind
      · apply ih
        exact tail.imp fun _ _ holds last isLast =>
          holds last (judgement.later_trans isLater isLast)
      · intro last results results' isLast hold
        exact judgement.pure (.cons (mono isLast holds) hold)

/-- A form may be evaluated later than at the point at which it is ready. -/
theorem Evaluates.later
    (evaluates : judgement.Evaluates evaluate other)
    (placed : judgement.placed world place)
    {form form' : Value}
    (ready : judgement.Ready world place .here form form')
    {later : judgement.World}
    (isLater : judgement.Later world later) :
    judgement.holds later judgement.value
      (evaluate (judgement.left place) form) (other (judgement.right place) form') :=
  evaluates (judgement.placed_mono isLater placed) (ready.mono isLater)

theorem Evaluates.mapM
    (evaluates : judgement.Evaluates evaluate other)
    (placed : judgement.placed world place)
    {forms others : List Value}
    (ready : List.Forall₂ (judgement.Ready world place .here) forms others)
    {later : judgement.World}
    (isLater : judgement.Later world later) :
    judgement.holds later (fun last => List.Forall₂ (judgement.value last))
      (forms.mapM (evaluate (judgement.left place)))
      (others.mapM (other (judgement.right place))) := by
  apply holds_mapM
  · exact fun isLast holds => judgement.value_mono isLast holds
  · exact ready.imp fun _ _ ready _ isLast =>
      evaluates.later placed ready (judgement.later_trans isLater isLast)

/-! ## Calls -/

theorem holds_applyBuiltin
    (builtin : Builtin)
    {arguments others : List Value}
    (same : List.Forall₂ (judgement.value world) arguments others) :
    judgement.holds world judgement.value
      (Call.applyBuiltin builtin arguments) (Call.applyBuiltin builtin others) := by
  rw [Call.applyBuiltin, Call.applyBuiltin, judgement.value_written builtin same]
  apply judgement.bind
  · exact holds_ofExcept (builtin.failsOrdinarily_result arguments)
      (judgement.value_result builtin same)
  · intro later value value' _ holds
    apply judgement.bind (judgement.write _)
    intro last _ _ isLast _
    exact judgement.pure (judgement.value_mono isLast holds)

theorem holds_applyClosure
    (evaluates : judgement.Evaluates evaluate other)
    (placed : judgement.placed world place)
    (parameters : Parameters)
    {body body' : Value}
    (ready : judgement.Ready world place .inside body body')
    {arguments others : List Value}
    (same : List.Forall₂ (judgement.value world) arguments others) :
    judgement.holds world judgement.value
      (Call.applyClosure evaluate parameters body (judgement.left place) arguments)
      (Call.applyClosure other (parameters.rename judgement.translation.name) body'
        (judgement.right place) others) := by
  rw [Call.applyClosure, Call.applyClosure, Parameters.arity_rename, ← same.length_eq]
  split
  · apply judgement.bind
    · exact judgement.openFrame placed (parameters.forall₂_bind judgement.value_list same)
    · rintro later _ _ isLater ⟨inner, rfl, rfl, opened⟩
      exact evaluates opened.placed (opened.ready isLater ready)
  · exact judgement.fail (judgement.allows_ordinary trivial)

theorem apply_of_not_function
    {function : Value}
    (plain : function.isFunction = false)
    (arguments : List Value) :
    Call.apply evaluate function arguments =
      Action.fail (.unexpectedValue "apply" "Function" function) := by
  cases function with
  | closure => cases plain
  | native => cases plain
  | _ => rfl

/-- Functions that correspond are applied as judged. -/
theorem holds_apply
    (evaluates : judgement.Evaluates evaluate other)
    {function function' : Value}
    (functions : judgement.value world function function')
    {arguments others : List Value}
    (same : List.Forall₂ (judgement.value world) arguments others) :
    judgement.holds world judgement.value
      (Call.apply evaluate function arguments) (Call.apply other function' others) := by
  cases judgement.applied functions with
  | @closure _ _ parameters _ _ _ _ placed renamed ready =>
      subst renamed
      exact holds_applyClosure evaluates placed parameters ready same
  | @homeless _ _ parameters _ body body' renamed allowed =>
      subst renamed
      show judgement.holds world judgement.value
        (Call.applyClosure evaluate parameters body none arguments)
        (Call.applyClosure other (parameters.rename judgement.translation.name) body' none others)
      rw [Call.applyClosure, Call.applyClosure, Parameters.arity_rename, ← same.length_eq]
      split
      · exact judgement.fail allowed
      · exact judgement.fail (judgement.allows_ordinary trivial)
  | builtin identity identity' builtin => exact holds_applyBuiltin builtin same
  | foreign allowed => exact judgement.fail allowed
  | other plain plain' described =>
      rw [apply_of_not_function plain, apply_of_not_function plain']
      rw [Fault.unexpectedValue, Fault.unexpectedValue, described]
      exact judgement.fail
        (judgement.allows_ordinary (Fault.isOrdinary_unexpectedValue (by decide) _ function))

/-! ## Special forms -/

theorem holds_failArity
    (form : SpecialForm)
    (accepted : Arity)
    {parts others : List Value}
    (same : List.Forall₂ (judgement.form world place) parts others) :
    judgement.holds world judgement.value
      (form.failArity accepted parts) (form.failArity accepted others) := by
  rw [SpecialForm.failArity, SpecialForm.failArity, ← same.length_eq]
  exact judgement.fail (judgement.allows_ordinary trivial)

/-- A name that is bound was written as a symbol, and is translated. -/
theorem holds_bindingName
    (context : String)
    {target target' : Value}
    (targets : judgement.form world place target target') :
    judgement.holds world
      (fun _ name name' => target = .symbol name ∧ name' = judgement.translation.name name)
      (Action.ofExcept (target.bindingName context))
      (Action.ofExcept (target'.bindingName context)) := by
  apply holds_ofExcept (target.failsOrdinarily_bindingName context)
  have agree := judgement.form_bindingName context targets
  generalize named : target.bindingName context = result at agree ⊢
  generalize target'.bindingName context = result' at agree ⊢
  cases agree with
  | fault fault => exact .fault fault
  | result same => exact .result ⟨Value.bindingName_eq_ok_iff.1 named, same⟩

/-- A name is bound to the value of a form, and something follows. -/
theorem holds_bindName
    {Result : Type}
    {related : judgement.World → Result → Result → Prop}
    (evaluates : judgement.Evaluates evaluate other)
    (placed : judgement.placed world place)
    (context : String)
    {target target' form form' : Value}
    (targets : judgement.form world place target target')
    (mayBind : ∀ name, target = .symbol name → judgement.may world place .target (.symbol name))
    (forms : judgement.form world place form form')
    (may : ∀ name, target = .symbol name → judgement.may world place .here form)
    {next next' : Value → Action Result}
    (rest :
      ∀ later value value',
        judgement.Later world later → judgement.value later value value' →
          judgement.holds later related (next value) (next' value')) :
    judgement.holds world related
      (do
        let name ← Action.ofExcept (target.bindingName context)
        let value ← evaluate (judgement.left place) form
        Action.define (judgement.left place) name value
        next value)
      (do
        let name ← Action.ofExcept (target'.bindingName context)
        let value ← other (judgement.right place) form'
        Action.define (judgement.right place) name value
        next' value) := by
  apply judgement.bind (holds_bindingName context targets)
  rintro later name _ isLater ⟨isName, rfl⟩
  apply judgement.bind (evaluates.later placed ⟨forms, may name isName⟩ isLater)
  intro between value value' isBetween holds
  have sinceStart := judgement.later_trans isLater isBetween
  apply judgement.bind
  · apply judgement.define (judgement.placed_mono sinceStart placed) ?_ holds
    exact judgement.may_mono sinceStart (mayBind name isName)
  · intro last _ _ isLast _
    exact rest last value value' (judgement.later_trans sinceStart isLast)
      (judgement.value_mono isLast holds)

section

variable
  {head : Value}
  {parts others : List Value}

theorem holds_evalDefine
    (evaluates : judgement.Evaluates evaluate other)
    (placed : judgement.placed world place)
    (special : SpecialForm.ofHead? head = some .define)
    (same : List.Forall₂ (judgement.form world place) parts others)
    (admits : judgement.Admits world place (.list (head :: parts))) :
    judgement.holds world judgement.value
      (SpecialForm.evalDefine evaluate (judgement.left place) parts)
      (SpecialForm.evalDefine other (judgement.right place) others) := by
  have failArity := holds_failArity .define (.exactly 2) same
  rcases same with _ | ⟨targets, _ | ⟨forms, _ | ⟨third, same⟩⟩⟩
  · exact failArity
  · exact failArity
  · rw [SpecialForm.evalDefine, SpecialForm.evalDefine]
    apply holds_bindName evaluates placed _ targets
    · rintro name rfl
      exact admits (.target special name _)
    · exact forms
    · rintro name rfl
      exact admits (.defined special name _)
    · intro later value value' _ holds
      exact judgement.pure holds
  · exact failArity

/-- Local definitions may bind any name in their frame. -/
theorem holds_evalBindings
    (evaluates : judgement.Evaluates evaluate other)
    (placed : judgement.placed world place)
    (mayBind : ∀ name, judgement.may world place .target (.symbol name))
    {items others : List Value}
    (same : List.Forall₂ (judgement.form world place) items others)
    (may : ∀ {form}, Value.HasLocalForm items form → judgement.may world place .here form) :
    judgement.holds world (fun _ _ _ => True)
      (SpecialForm.evalBindings evaluate (judgement.left place) items)
      (SpecialForm.evalBindings other (judgement.right place) others) := by
  fun_induction SpecialForm.evalBindings evaluate (judgement.left place) items
      generalizing world others with
  | case1 target form rest ih =>
      rcases same with _ | ⟨targets, _ | ⟨forms, same⟩⟩
      rw [SpecialForm.evalBindings]
      apply holds_bindName evaluates placed _ targets fun name _ => mayBind name
      · exact forms
      · exact fun _ _ => may (.first target form rest)
      · intro later value value' isLater _
        apply ih (judgement.placed_mono isLater placed)
        · exact fun name => judgement.may_mono isLater (mayBind name)
        · exact same.imp fun _ _ alike => judgement.form_mono isLater alike
        · exact fun among => judgement.may_mono isLater (may (.later target form among))
  | case2 items short =>
      rcases same with _ | ⟨targets, _ | ⟨forms, same⟩⟩
      · exact judgement.pure trivial
      · exact judgement.pure trivial
      · exact absurd rfl (short _ _ _)

/-- The forms are evaluated in frames that are opened for them, in both runs. -/
theorem holds_evalLetIn
    (evaluates : judgement.Evaluates evaluate other)
    (placed : judgement.placed world place)
    (special : SpecialForm.ofHead? head = some .letIn)
    (same : List.Forall₂ (judgement.form world place) parts others)
    (admits : judgement.Admits world place (.list (head :: parts))) :
    judgement.holds world judgement.value
      (SpecialForm.evalLetIn evaluate (judgement.left place) parts)
      (SpecialForm.evalLetIn other (judgement.right place) others) := by
  have failArity := holds_failArity .letIn (.exactly 2) same
  rcases same with _ | ⟨bindings, _ | ⟨bodies, _ | ⟨third, same⟩⟩⟩
  · exact failArity
  · exact failArity
  · have sequences := judgement.form_items? bindings
    have ordinary := Fault.isOrdinary_unexpectedValue (by decide : SpecialForm.letIn.name ≠ "eval")
    rw [SpecialForm.evalLetIn, SpecialForm.evalLetIn, Fault.unexpectedValue,
      Fault.unexpectedValue, judgement.form_describe bindings]
    generalize sequence : Value.items? _ = items at sequences
    generalize Value.items? _ = items' at sequences
    cases sequences with
    | none => exact judgement.fail (judgement.allows_ordinary (ordinary _ _))
    | @some items items' inItems =>
        dsimp only
        rw [← inItems.length_eq]
        split
        · apply judgement.bind (judgement.openFrame placed .nil)
          rintro later _ _ isLater ⟨inner, rfl, rfl, opened⟩
          apply judgement.bind
          · apply holds_evalBindings evaluates opened.placed opened.target
            · exact inItems.imp fun _ _ alike => opened.form (judgement.form_mono isLater alike)
            · intro form among
              have inside := admits (.localForm special sequence among _)
              exact opened.may (judgement.may_mono isLater inside)
          · intro last _ _ isLast _
            have body := admits (.localBody special _ _)
            exact evaluates.later opened.placed (opened.ready isLater ⟨bodies, body⟩) isLast
        · exact judgement.fail (judgement.allows_ordinary trivial)
  · exact failArity

theorem holds_evalSequence
    (evaluates : judgement.Evaluates evaluate other)
    (placed : judgement.placed world place)
    (ready : List.Forall₂ (judgement.Ready world place .here) parts others) :
    judgement.holds world judgement.value
      (SpecialForm.evalSequence evaluate (judgement.left place) parts)
      (SpecialForm.evalSequence other (judgement.right place) others) := by
  induction parts generalizing world others with
  | nil =>
      cases ready
      exact judgement.pure (judgement.value_nil world)
  | cons form forms ih =>
      rcases ready with _ | ⟨head, _ | ⟨next, rest⟩⟩
      · exact evaluates placed head
      · apply judgement.bind (evaluates placed head)
        intro later _ _ isLater _
        apply ih (judgement.placed_mono isLater placed)
        exact (List.Forall₂.cons next rest).imp fun _ _ ready => ready.mono isLater

theorem holds_evalConditional
    (evaluates : judgement.Evaluates evaluate other)
    (placed : judgement.placed world place)
    (special : SpecialForm.ofHead? head = some .conditional)
    (same : List.Forall₂ (judgement.form world place) parts others)
    (admits : judgement.Admits world place (.list (head :: parts))) :
    judgement.holds world judgement.value
      (SpecialForm.evalConditional evaluate (judgement.left place) parts)
      (SpecialForm.evalConditional other (judgement.right place) others) := by
  have failArity := holds_failArity .conditional (.between 2 3) same
  rcases same with _ | ⟨condition, _ | ⟨positive, _ | ⟨negative, _ | ⟨fourth, same⟩⟩⟩⟩
  · exact failArity
  · exact failArity
  · apply judgement.bind
    · exact evaluates placed ⟨condition, admits (.branch special (Or.inl rfl) (by simp))⟩
    · intro later value value' isLater holds
      rw [judgement.value_isTruthy holds]
      split
      · apply evaluates.later placed ⟨positive, ?_⟩ isLater
        exact admits (.branch special (Or.inl rfl) (by simp))
      · exact judgement.pure (judgement.value_nil later)
  · apply judgement.bind
    · exact evaluates placed ⟨condition, admits (.branch special (Or.inr rfl) (by simp))⟩
    · intro later value value' isLater holds
      rw [judgement.value_isTruthy holds]
      split
      · apply evaluates.later placed ⟨positive, ?_⟩ isLater
        exact admits (.branch special (Or.inr rfl) (by simp))
      · apply evaluates.later placed ⟨negative, ?_⟩ isLater
        exact admits (.branch special (Or.inr rfl) (by simp))
  · exact failArity

theorem exists_ofNames?_of_ofValue
    {context : String}
    {value : Value}
    {parameters : Parameters}
    (success : Parameters.ofValue context value = .ok parameters) :
    ∃ names, Parameters.ofNames? names = some parameters := by
  obtain ⟨names, -, denotes⟩ := Parameters.ofValue_eq_ok_iff.1 success
  exact ⟨names, Parameters.ofNames?_eq_some_iff.2 denotes⟩

/-- Parameters that are found are denoted by a list of names, and are translated. -/
theorem holds_parameters
    {context : String}
    (noEval : context ≠ "eval")
    {form form' : Value}
    (forms : judgement.form world place form form') :
    judgement.holds world
      (fun _ parameters parameters' =>
        (∃ names, Parameters.ofNames? names = some parameters) ∧
          parameters' = parameters.rename judgement.translation.name)
      (Action.ofExcept (Parameters.ofValue context form))
      (Action.ofExcept (Parameters.ofValue context form')) := by
  apply holds_ofExcept (Parameters.failsOrdinarily_ofValue noEval form)
  have agree := judgement.form_parameters context forms
  generalize found : Parameters.ofValue context form = result at agree ⊢
  generalize Parameters.ofValue context form' = result' at agree ⊢
  cases agree with
  | fault fault => exact .fault fault
  | result same => exact .result ⟨exists_ofNames?_of_ofValue found, same⟩

theorem holds_evalFunction
    (placed : judgement.placed world place)
    (special : SpecialForm.ofHead? head = some .function)
    (same : List.Forall₂ (judgement.form world place) parts others)
    (admits : judgement.Admits world place (.list (head :: parts))) :
    judgement.holds world judgement.value
      (SpecialForm.evalFunction (judgement.left place) parts)
      (SpecialForm.evalFunction (judgement.right place) others) := by
  have failArity := holds_failArity .function (.exactly 2) same
  rcases same with _ | ⟨parameters, _ | ⟨bodies, _ | ⟨third, same⟩⟩⟩
  · exact failArity
  · exact failArity
  · apply judgement.bind (holds_parameters (by decide) parameters)
    rintro later found _ isLater ⟨⟨names, denoted⟩, rfl⟩
    apply judgement.makeClosure (judgement.placed_mono isLater placed) denoted
    exact Conditions.Ready.mono ⟨bodies, admits (.functionBody special _ _)⟩ isLater
  · exact failArity

/-! ## Forms -/

/-- Parts that correspond are ready, if each of them may be evaluated. -/
theorem forall₂_ready
    (same : List.Forall₂ (judgement.form world place) parts others)
    (may : ∀ {part}, part ∈ parts → judgement.may world place .here part) :
    List.Forall₂ (judgement.Ready world place .here) parts others := by
  have both := (List.forall₂_and_left parts others).2 ⟨fun _ member => may member, same⟩
  exact both.imp fun _ _ holds => ⟨holds.2, holds.1⟩

theorem holds_evalList
    (evaluates : judgement.Evaluates evaluate other)
    (placed : judgement.placed world place)
    {head' : Value}
    (heads : judgement.form world place head head')
    (same : List.Forall₂ (judgement.form world place) parts others)
    (admits : judgement.Admits world place (.list (head :: parts))) :
    judgement.holds world judgement.value
      (Eval.evalList evaluate (judgement.left place) head parts)
      (Eval.evalList other (judgement.right place) head' others) := by
  rw [Eval.evalList, Eval.evalList, judgement.form_ofHead? heads]
  cases special : SpecialForm.ofHead? head with
  | some form =>
      cases form with
      | define => exact holds_evalDefine evaluates placed special same admits
      | letIn => exact holds_evalLetIn evaluates placed special same admits
      | sequence =>
          exact holds_evalSequence evaluates placed
            (forall₂_ready same fun member => admits (.step special member))
      | conditional => exact holds_evalConditional evaluates placed special same admits
      | function => exact holds_evalFunction placed special same admits
  | none =>
      have called {part : Value} (member : part ∈ head :: parts) :
          judgement.may world place .here part :=
        admits (.called special member)
      apply judgement.bind (evaluates placed ⟨heads, called List.mem_cons_self⟩)
      intro later function function' isLater functions
      apply judgement.bind
      · apply evaluates.mapM placed ?_ isLater
        exact forall₂_ready same fun member => called (List.mem_cons_of_mem head member)
      · intro last arguments arguments' isLast argumentsRelated
        exact holds_apply evaluates (judgement.value_mono isLast functions) argumentsRelated

theorem holds_evalEntry
    (evaluates : judgement.Evaluates evaluate other)
    (placed : judgement.placed world place)
    {entry entry' : Value × Value}
    (key : judgement.Ready world place .here entry.1 entry'.1)
    (value : judgement.Ready world place .here entry.2 entry'.2) :
    judgement.holds world (fun later => EntriesRelated (judgement.value later))
      (Eval.evalEntry evaluate (judgement.left place) entry)
      (Eval.evalEntry other (judgement.right place) entry') := by
  rw [Eval.evalEntry, Eval.evalEntry]
  apply judgement.bind (evaluates placed key)
  intro later _ _ isLater keys
  apply judgement.bind (evaluates.later placed value isLater)
  intro last _ _ isLast values
  exact judgement.pure ⟨judgement.value_mono isLast keys, values⟩

theorem holds_entries
    (evaluates : judgement.Evaluates evaluate other)
    (placed : judgement.placed world place)
    {entries others : List (Value × Value)}
    (same : List.Forall₂ (EntriesRelated (judgement.form world place)) entries others)
    (admits : judgement.Admits world place (.map entries)) :
    judgement.holds world (fun later => List.Forall₂ (EntriesRelated (judgement.value later)))
      (entries.mapM (Eval.evalEntry evaluate (judgement.left place)))
      (others.mapM (Eval.evalEntry other (judgement.right place))) := by
  apply holds_mapM
  · intro world later entry entry' isLater related
    exact ⟨judgement.value_mono isLater related.1, judgement.value_mono isLater related.2⟩
  · have both := (List.forall₂_and_left entries others).2 ⟨fun _ member => member, same⟩
    apply both.imp
    rintro entry entry' ⟨member, keys, values⟩ later isLater
    apply holds_evalEntry evaluates (judgement.placed_mono isLater placed)
    · exact Conditions.Ready.mono ⟨keys, admits (.key member)⟩ isLater
    · exact Conditions.Ready.mono ⟨values, admits (.entry member)⟩ isLater

end

/-- One more level of evaluation is as judged, if the evaluation of the parts is. -/
theorem holds_evalForm
    (evaluates : judgement.Evaluates evaluate other)
    (placed : judgement.placed world place)
    {form form' : Value}
    (alike : judgement.form world place form form')
    (admits : judgement.Admits world place form) :
    judgement.holds world judgement.value
      (Eval.evalForm evaluate (judgement.left place) form)
      (Eval.evalForm other (judgement.right place) form') := by
  by_cases isConstant : form.isConstant = true
  · rw [Eval.evalForm_of_isConstant isConstant,
      Eval.evalForm_of_isConstant (judgement.form_constant alike isConstant)]
    exact judgement.pure (judgement.value_constant alike (admits (.constant isConstant)) isConstant)
  · cases form with
    | symbol name =>
        obtain rfl := judgement.form_symbol alike
        exact judgement.lookup placed alike (admits (.symbol name))
    | list items =>
        obtain ⟨others, rfl, inItems⟩ := judgement.form_list alike
        rcases inItems with _ | ⟨heads, same⟩
        · exact judgement.pure (judgement.value_list .nil)
        · exact holds_evalList evaluates placed heads same admits
    | vector items =>
        obtain ⟨others, rfl, inItems⟩ := judgement.form_vector alike
        apply judgement.bind
        · apply evaluates.mapM placed ?_ (judgement.later_refl world)
          exact forall₂_ready inItems fun member => admits (.item member)
        · intro later values values' _ related
          exact judgement.pure (judgement.value_vector related)
    | map entries =>
        obtain ⟨others, rfl, inEntries⟩ := judgement.form_map alike
        apply judgement.bind (holds_entries evaluates placed inEntries admits)
        intro later pairs pairs' _ related
        exact judgement.pure (judgement.value_map related)
    | comment text =>
        obtain rfl := judgement.form_comment alike
        exact judgement.fail (judgement.allows_comment (admits (.comment text)))
    | _ => exact absurd rfl isConstant

/-- What may be evaluated asks of its parts what they need. -/
def PassesToParts (judgement : Judgement) : Prop :=
  ∀ ⦃world place form⦄, judgement.may world place .here form → judgement.Admits world place form

theorem evaluates_evalForm
    (passes : judgement.PassesToParts)
    (evaluates : judgement.Evaluates evaluate other) :
    judgement.Evaluates (Eval.evalForm evaluate) (Eval.evalForm other) :=
  fun _ _ _ _ placed ready => holds_evalForm evaluates placed ready.form (passes ready.may)

/-- Evaluation to every depth is as judged, if there is nothing against a lack of depth. -/
theorem evaluates_eval
    (passes : judgement.PassesToParts)
    (tooDeep : ∀ world, judgement.holds world judgement.value Action.tooDeep Action.tooDeep)
    (depth : Nat) :
    judgement.Evaluates (eval depth) (eval depth) := by
  induction depth with
  | zero => exact fun world _ _ _ _ _ => tooDeep world
  | succ depth ih => exact evaluates_evalForm passes ih

end Judgement

end MiniLisp
