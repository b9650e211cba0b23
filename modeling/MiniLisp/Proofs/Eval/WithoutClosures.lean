import MiniLisp.Proofs.Builtin.Yields
import MiniLisp.Proofs.Eval.Depth
import MiniLisp.Proofs.Eval.Reachable
import MiniLisp.Proofs.Value.AscendingEntries

/-!
# Evaluation without closures

This module shows that only closures make evaluation go deeper than its form.  A form
in which no closure stands and no function is made (`Value.MakesNoClosure`) is evaluated
to the end, in a store that binds no closure (`Store.BindsNoClosure`), at a depth that the
nesting of the form gives (`eval_without_closures`).

What would break the bound is a call that evaluates the body of a closure, and nothing
ever yields one: a name stands for a value that was bound without closures in it, and
builtin functions only take values and put them together.  So what an action needs and
what it leaves go together in one notion: from a store that binds no closure the action
ends, leaves such a store even if it fails, and gives a result of a given kind
(`Action.Settles`).  Every step settles if the evaluation of the forms inside does
(`Assessment.settling`), and the forms inside are less nested than the whole.
-/

namespace MiniLisp

namespace Value

/-! ## Nesting -/

mutual

/-- How many values stand inside one another, from the value itself on inwards. -/
def nesting : Value → Nat
  | list items => nestingItems items + 1
  | vector items => nestingItems items + 1
  | map entries => nestingEntries entries + 1
  | _ => 1

/-- The nesting of the most nested item. -/
def nestingItems : List Value → Nat
  | [] => 0
  | item :: items => max (nesting item) (nestingItems items)

/-- The nesting of the most nested key or value. -/
def nestingEntries : List (Value × Value) → Nat
  | [] => 0
  | (key, value) :: entries => max (max (nesting key) (nesting value)) (nestingEntries entries)

end

private theorem nesting_le_nestingItems
    {item : Value}
    {items : List Value}
    (member : item ∈ items) :
    item.nesting ≤ nestingItems items := by
  induction items with
  | nil => cases member
  | cons first items ih =>
      rw [nestingItems]
      rcases List.mem_cons.1 member with rfl | later
      · exact Nat.le_max_left _ _
      · exact Nat.le_trans (ih later) (Nat.le_max_right _ _)

private theorem nestingEntries_eq_nestingItems (entries : List (Value × Value)) :
    nestingEntries entries = nestingItems (Entries.items entries) := by
  induction entries with
  | nil => rfl
  | cons entry entries ih =>
      rw [nestingEntries, Entries.items, nestingItems, nestingItems, ih, Nat.max_assoc]

theorem nesting_pos (value : Value) : 0 < value.nesting := by
  cases value with
  | list items => exact Nat.succ_pos _
  | vector items => exact Nat.succ_pos _
  | map entries => exact Nat.succ_pos _
  | _ => exact Nat.one_pos

/-- A part is less nested than the whole. -/
theorem nesting_lt_of_mem_parts
    {part value : Value}
    (member : part ∈ value.parts) :
    part.nesting < value.nesting := by
  cases value with
  | list items => exact Nat.lt_succ_of_le (nesting_le_nestingItems member)
  | vector items => exact Nat.lt_succ_of_le (nesting_le_nestingItems member)
  | map entries =>
      rw [nesting, nestingEntries_eq_nestingItems]
      exact Nat.lt_succ_of_le (nesting_le_nestingItems member)
  | _ => cases member

/-! ## Values without closures and forms that make none -/

/-- Functions that are written in the language itself. -/
def isClosure : Value → Bool
  | closure .. => true
  | _ => false

/-- The value is no closure, nor is there one in it at any depth. -/
def isClosureFree (value : Value) : Bool :=
  value.everywhere fun part => !part.isClosure

/-- Lists that start like the special form that makes a function. -/
def isFunctionForm : Value → Bool
  | list (head :: _) => SpecialForm.ofHead? head == some .function
  | _ => false

/--
The forms right inside a form, be they evaluated or not.  A list of local definitions is
no form itself, and may start with any name; the names and forms in it count instead.
-/
def subforms : Value → List Value
  | list [head, bindings, body] =>
    if SpecialForm.ofHead? head = some .letIn then
      bindings.parts ++ [body]
    else
      [head, bindings, body]
  | value => value.parts

/-- Neither a closure nor a form that makes a function stands in the form, at any depth. -/
inductive MakesNoClosure : Value → Prop where
  | intro
      {form : Value}
      (noClosure : form.isClosure = false)
      (noFunctionForm : form.isFunctionForm = false)
      (inside : ∀ subform ∈ form.subforms, MakesNoClosure subform) :
      MakesNoClosure form

theorem isClosureFree_iff {value : Value} :
    value.isClosureFree = true ↔
      value.isClosure = false ∧ ∀ part ∈ value.parts, part.isClosureFree = true := by
  rw [isClosureFree, everywhere_iff, Bool.not_eq_true']
  rfl

theorem isClosureFree_of_leaf
    {value : Value}
    (noClosure : value.isClosure = false)
    (noParts : value.parts = []) :
    value.isClosureFree = true := by
  refine isClosureFree_iff.2 ⟨noClosure, fun part member => ?_⟩
  rw [noParts] at member
  cases member

theorem isClosureFree_of_isConstant
    {constant : Value}
    (noClosure : constant.isClosure = false)
    (isConstant : constant.isConstant = true) :
    constant.isClosureFree = true := by
  apply isClosureFree_of_leaf noClosure
  cases constant with
  | list => cases isConstant
  | vector => cases isConstant
  | map => cases isConstant
  | _ => rfl

/-- A builtin function gives back no closure that it was not given. -/
theorem isClosureFree_of_yields
    {arguments : List Value}
    {value : Value}
    (yields : Builtin.Yields arguments value)
    (free : ∀ argument ∈ arguments, argument.isClosureFree = true) :
    value.isClosureFree = true := by
  cases yields with
  | argument member => exact free value member
  | list => exact isClosureFree_iff.2 ⟨rfl, free⟩
  | _ => exact isClosureFree_of_leaf rfl rfl

theorem subforms_of_not_letIn
    {head : Value}
    (other : SpecialForm.ofHead? head ≠ some .letIn)
    (parts : List Value) :
    (list (head :: parts)).subforms = head :: parts := by
  rw [subforms.eq_def]
  split
  · next same =>
      cases same
      exact if_neg other
  · rfl

theorem subforms_of_letIn
    {head : Value}
    (special : SpecialForm.ofHead? head = some .letIn)
    (bindings body : Value) :
    (list [head, bindings, body]).subforms = bindings.parts ++ [body] :=
  if_pos special

/-- A form inside is a part, or a part of one. -/
theorem mem_parts_of_mem_subforms
    {subform form : Value}
    (member : subform ∈ form.subforms) :
    subform ∈ form.parts ∨ ∃ part ∈ form.parts, subform ∈ part.parts := by
  rw [subforms.eq_def] at member
  split at member
  · next head bindings body =>
      split at member
      · rcases List.mem_append.1 member with inBindings | isBody
        · exact Or.inr ⟨bindings, by simp, inBindings⟩
        · cases List.mem_singleton.1 isBody
          exact Or.inl (by simp)
      · exact Or.inl member
  · exact Or.inl member

theorem nesting_lt_of_mem_subforms
    {subform form : Value}
    (member : subform ∈ form.subforms) :
    subform.nesting < form.nesting := by
  rcases mem_parts_of_mem_subforms member with isPart | ⟨part, isPart, inPart⟩
  · exact nesting_lt_of_mem_parts isPart
  · exact Nat.lt_trans (nesting_lt_of_mem_parts inPart) (nesting_lt_of_mem_parts isPart)

namespace HasPart

variable {form part : Value}

theorem eq_of_itself (isPart : form.HasPart .itself part) : part = form := by
  cases isPart <;> rfl

/-- The parts that are evaluated are forms right inside the form. -/
theorem mem_subforms
    {role : Role}
    (isPart : form.HasPart role part)
    (evaluated : role = .here ∨ role = .inside) :
    part ∈ form.subforms := by
  cases isPart with
  | item member => exact member
  | key member => exact Entries.key_mem_items member
  | entry member => exact Entries.value_mem_items member
  | called plain member => simpa [subforms_of_not_letIn, plain] using member
  | defined special => simp [subforms_of_not_letIn, special]
  | step special member => simp [subforms_of_not_letIn, special, member]
  | branch special _ member =>
      rw [subforms_of_not_letIn (by simp [special])]
      exact List.mem_cons_of_mem _ member
  | localForm special sequence among =>
      rw [subforms_of_letIn special]
      exact List.mem_append_left _ (mem_parts_of_items? sequence among.mem)
  | localBody special =>
      rw [subforms_of_letIn special]
      simp
  | _ => simp at evaluated

theorem isFunctionForm (isBody : form.HasPart .body part) : form.isFunctionForm = true := by
  cases isBody with
  | functionBody special => simp [Value.isFunctionForm, special]

end HasPart

/-- It is enough that no closure and no list like a function form stands anywhere. -/
theorem makesNoClosure_of_everywhere
    {form : Value}
    (plain : form.everywhere (fun part => !part.isClosure && !part.isFunctionForm) = true) :
    form.MakesNoClosure := by
  induction size : form.nesting using Nat.strongRecOn generalizing form with
  | ind size' ih =>
      obtain ⟨here, inParts⟩ := everywhere_iff.1 plain
      rw [Bool.and_eq_true, Bool.not_eq_true', Bool.not_eq_true'] at here
      refine .intro here.1 here.2 fun subform member => ?_
      have smaller := nesting_lt_of_mem_subforms member
      apply ih subform.nesting (size ▸ smaller) ?_ rfl
      rcases mem_parts_of_mem_subforms member with isPart | ⟨part, isPart, inPart⟩
      · exact inParts subform isPart
      · exact (everywhere_iff.1 (inParts part isPart)).2 subform inPart

end Value

/-! ## Stores that bind no closure -/

/-- No frame binds a name to a closure, or to a collection with a closure in it. -/
def Store.BindsNoClosure (store : Store) : Prop :=
  store.Binds fun _ value => value.isClosureFree = true

namespace Store.BindsNoClosure

variable {store : Store}

theorem empty : Store.empty.BindsNoClosure :=
  fun _ _ _ _ found => by cases found

theorem addEmpty
    (binds : store.BindsNoClosure)
    (parent : Option FrameId) :
    (store.addFrame ⟨[], parent⟩).BindsNoClosure := by
  apply Binds.addFrame binds
  intro name value bound
  cases bound

/-- A session that is entered binds builtin functions alone. -/
theorem enter
    (binds : store.BindsNoClosure) :
    (Session.enter store).BindsNoClosure := by
  apply defineBuiltins_induction (binds.addEmpty none)
  intro later builtin bindsLater
  have free : (Value.native later.functions builtin).isClosureFree = true :=
    Value.isClosureFree_of_leaf rfl rfl
  exact Binds.of_frames_eq (Binds.define bindsLater store.nextFrame builtin.name free) rfl

end Store.BindsNoClosure

/-! ## Actions that settle -/

namespace Action

/--
From every store that binds no closure the action ends, in such a store again, and a
result has a given property.
-/
def Settles
    {Result : Type}
    (property : Result → Prop)
    (action : Action Result) :
    Prop :=
  ∀ store,
    store.BindsNoClosure →
      ∃ outcome after,
        action.outcome store = some (outcome, after) ∧
          after.BindsNoClosure ∧ ∀ result, outcome = .ok result → property result

namespace Settles

variable
  {First Second Result : Type}
  {property : Result → Prop}

theorem pure
    {result : Result}
    (holds : property result) :
    (pure result : Action Result).Settles property := by
  intro store binds
  refine ⟨.ok result, store, rfl, binds, ?_⟩
  rintro _ ⟨⟩
  exact holds

theorem fail
    (property : Result → Prop)
    (fault : Fault) :
    (fail fault : Action Result).Settles property :=
  fun store binds => ⟨.error fault, store, rfl, binds, by simp⟩

theorem lookup
    (frame : FrameId)
    (name : String) :
    (lookup frame name).Settles (·.isClosureFree = true) := by
  intro store binds
  rw [outcome_lookup]
  cases found : store.lookup? frame name with
  | none => exact ⟨_, store, rfl, binds, by simp⟩
  | some value =>
      refine ⟨_, store, rfl, binds, ?_⟩
      rintro _ ⟨⟩
      exact Store.Binds.lookup? binds found

theorem define
    (frame : FrameId)
    (name : String)
    {value : Value}
    (free : value.isClosureFree = true) :
    (define frame name value).Settles fun _ => True :=
  fun _ binds => ⟨.ok (), _, rfl, Store.Binds.define binds frame name free, fun _ _ => trivial⟩

theorem openFrame
    {property : FrameId → Prop}
    (parent : FrameId)
    {bindings : Bindings}
    (free : ∀ name value, bindings.get? name = some value → value.isClosureFree = true)
    (holds : ∀ frame, property frame) :
    (openFrame parent bindings).Settles property :=
  fun store binds =>
    ⟨.ok store.nextFrame, _, rfl, Store.Binds.addFrame binds free, fun frame _ => holds frame⟩

theorem write (text : String) :
    (write text).Settles fun _ => True :=
  fun _ binds => ⟨.ok (), _, rfl, Store.Binds.of_frames_eq binds rfl, fun _ _ => trivial⟩

theorem bind
    {early : First → Prop}
    {action : Action First}
    {next : First → Action Result}
    (settles : action.Settles early)
    (rest : ∀ value, early value → (next value).Settles property) :
    (action >>= next).Settles property := by
  intro store binds
  obtain ⟨outcome, between, made, bindsBetween, good⟩ := settles store binds
  rw [outcome_bind, made]
  cases outcome with
  | error fault => exact ⟨.error fault, between, rfl, bindsBetween, by simp⟩
  | ok value => exact rest value (good value rfl) between bindsBetween

end Settles

end Action

/-- In whatever frame, the evaluation of the form settles on a value without closures. -/
def Evaluator.SettlesOn (evaluate : Evaluator) (form : Value) : Prop :=
  ∀ frame, (evaluate frame form).Settles (·.isClosureFree = true)

/-- The forms inside settle, and no function is made. -/
def OneRun.settling (evaluate : Evaluator) : OneRun where
  may := fun _ _ role part =>
    match role with
    | .itself => part.isClosure = false
    | .target => True
    | .here => evaluate.SettlesOn part
    | .inside => evaluate.SettlesOn part
    | .body => False
  may_mono := fun _ may => may
  good := fun _ value => value.isClosureFree = true
  good_mono := fun _ free => free
  good_of_yields := Value.isClosureFree_of_yields
  good_vector := fun free => Value.isClosureFree_iff.2 ⟨rfl, free⟩
  good_map := fun free => Value.isClosureFree_iff.2 ⟨rfl, Entries.forall_items_ofPairs free⟩
  good_constant := Value.isClosureFree_of_isConstant
  closure := by
    intro _ _ _ _ _ free
    cases (Value.isClosureFree_iff.1 free).1

/-- Actions settle. -/
def Assessment.settling (evaluate : Evaluator) : Assessment where
  toOneRun := .settling evaluate
  holds := fun _ property action => action.Settles (property ())
  pure := .pure
  fail := fun property _ => .fail (property ()) _
  bind := fun settles rest => settles.bind fun result has => rest () result trivial has
  lookup := fun _ => .lookup _ _
  define := fun _ free => .define _ _ free
  openFrame := by
    intro _ frame pairs _ free
    apply Action.Settles.openFrame frame
    · exact fun name value bound => free _ (Bindings.mem_of_get?_ofPairs bound)
    · exact fun inner => ⟨trivial, id, fun _ => trivial⟩
  makeClosure := fun _ _ made => made.elim
  write := .write

/-- One more level of evaluation settles if the evaluation of the forms inside does. -/
theorem Evaluator.settlesOn_evalForm
    {evaluate : Evaluator}
    {form : Value}
    (noClosure : form.isClosure = false)
    (noFunctionForm : form.isFunctionForm = false)
    (each : ∀ subform ∈ form.subforms, evaluate.SettlesOn subform) :
    Evaluator.SettlesOn (Eval.evalForm evaluate) form := by
  intro frame
  have evaluates : (Assessment.settling evaluate).Evaluates evaluate :=
    fun _ frame _ _ settles => settles frame
  apply evaluates.evalForm_of_admits () trivial
  intro role part isPart
  cases role with
  | itself => exact isPart.eq_of_itself ▸ noClosure
  | target => trivial
  | here => exact each part (isPart.mem_subforms (Or.inl rfl))
  | inside => exact each part (isPart.mem_subforms (Or.inr rfl))
  | body =>
      rw [isPart.isFunctionForm] at noFunctionForm
      cases noFunctionForm

/-- A form that makes no closure settles at every depth that its nesting does not exceed. -/
theorem settles_eval
    {form : Value}
    (makes : form.MakesNoClosure)
    {depth : Nat}
    (enough : form.nesting ≤ depth) :
    (eval depth).SettlesOn form := by
  induction depth generalizing form with
  | zero => exact absurd form.nesting_pos (Nat.not_lt_of_le enough)
  | succ depth ih =>
      obtain ⟨noClosure, noFunctionForm, inside⟩ := makes
      apply Evaluator.settlesOn_evalForm noClosure noFunctionForm
      intro subform member
      have smaller := Value.nesting_lt_of_mem_subforms member
      exact ih (inside subform member) (by omega)

/--
Where no closure is bound, a form that makes no closure is evaluated to the end: its
nesting is depth enough, and more depth changes nothing.  Whether there is a value or a
fault, no closure is bound after it, and the value has none in it.
-/
theorem eval_without_closures
    {form : Value}
    (makes : form.MakesNoClosure)
    {store : Store}
    (binds : store.BindsNoClosure)
    (frame : FrameId) :
    ∃ outcome after,
      (∀ depth,
        form.nesting ≤ depth →
          (eval depth frame form).outcome store = some (outcome, after)) ∧
        after.BindsNoClosure ∧
          ∀ value, outcome = .ok value → value.isClosureFree = true := by
  obtain ⟨outcome, after, ends, bindsAfter, free⟩ :=
    settles_eval makes (Nat.le_refl form.nesting) frame store binds
  refine ⟨outcome, after, fun depth enough => ?_, bindsAfter, free⟩
  exact (eval_refines enough frame form).ends ends

/-- `(let* [all (list 1 and)] (if (or nil all) {:all all} (do (def! x 1) x)))` -/
def closureFreeForm : Value :=
  .list [.symbol "let*",
    .vector [.symbol "all", .list [.symbol "list", .number 1, .symbol "and"]],
    .list [.symbol "if",
      .list [.symbol "or", .nil, .symbol "all"],
      .map [(.keyword "all", .symbol "all")],
      .list [.symbol "do",
        .list [.symbol "def!", .symbol "x", .number 1],
        .symbol "x"]]]

/-- The form is nested five deep, and the map that it gives holds a builtin function. -/
theorem eval_without_closures_of_session :
    closureFreeForm.MakesNoClosure ∧
      (Session.enter .empty).BindsNoClosure ∧
        ∃ value after,
          (∀ depth,
            5 ≤ depth →
              (eval depth 0 closureFreeForm).outcome (Session.enter .empty) =
                some (.ok value, after)) ∧
            value.readable = "{:all (1 #<function>)}" ∧
              after.BindsNoClosure ∧ value.isClosureFree = true := by
  have makes : closureFreeForm.MakesNoClosure :=
    Value.makesNoClosure_of_everywhere (by decide +kernel)
  have binds : (Session.enter .empty).BindsNoClosure := Store.BindsNoClosure.empty.enter
  have nesting : closureFreeForm.nesting = 5 := by decide +kernel
  obtain ⟨outcome, after, ends, bindsAfter, free⟩ := eval_without_closures makes binds 0
  rw [nesting] at ends
  have shown :
      ((eval 5 0 closureFreeForm).outcome (Session.enter .empty)).map
          (fun ending => ending.1.map Value.readable) =
        some (.ok "{:all (1 #<function>)}") := by decide +kernel
  rw [ends 5 (Nat.le_refl 5)] at shown
  cases outcome with
  | error fault => cases shown
  | ok value =>
      have readable := Except.ok.inj (Option.some.inj shown)
      exact ⟨makes, binds, value, after, ends, readable, bindsAfter, free value rfl⟩

end MiniLisp
