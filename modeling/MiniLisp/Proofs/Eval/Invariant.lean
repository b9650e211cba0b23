import MiniLisp.Proofs.Eval.OneRun
import MiniLisp.Proofs.Value.AscendingEntries

/-!
# Invariants of evaluation

This module shows that a property of values which every step of evaluation hands
on is a property of everything that a program makes.

An invariant is a property of forms together with a property of the values that
forms evaluate to (`Invariant`).  It has one law for each way in which the rules
and the builtin functions make values.  It holds in a store if all bound values
have the property; every parent is then required to be an older frame.

Evaluation in such a store ends in such a store, with a value that has the
property or with a fault (`Invariant.maintains_eval`).  The fault is no syntax
error.  It is that of a comment only if the property of forms admits comments, and an
internal one only if the property of values admits a function that cannot be applied
(`Invariant.Allows`).
-/

namespace MiniLisp

/-- At least as many functions and frames have been made. -/
structure Store.Precedes (before after : Store) : Prop where
  functions : before.functions ≤ after.functions
  frames : before.nextFrame ≤ after.nextFrame

namespace Store.Precedes

theorem refl (store : Store) : store.Precedes store :=
  ⟨Nat.le_refl _, Nat.le_refl _⟩

theorem trans
    {first second third : Store}
    (early : first.Precedes second)
    (late : second.Precedes third) :
    first.Precedes third :=
  ⟨Nat.le_trans early.functions late.functions, Nat.le_trans early.frames late.frames⟩

theorem addFrame
    (store : Store)
    (content : Frame) :
    store.Precedes (store.addFrame content) where
  functions := Nat.le_refl _
  frames := by simp

theorem define
    (store : Store)
    (frame : FrameId)
    (name : String)
    (value : Value) :
    store.Precedes (store.define frame name value) where
  functions := Nat.le_refl _
  frames := by simp

theorem addFunction (store : Store) : store.Precedes store.addFunction :=
  ⟨Nat.le_succ store.functions, Nat.le_refl _⟩

theorem write
    (store : Store)
    (text : String) :
    store.Precedes (store.write text) :=
  ⟨Nat.le_refl _, Nat.le_refl _⟩

end Store.Precedes

/-- A property of forms, and a property of the values that they evaluate to. -/
structure Invariant where
  form : Store → Value → Prop
  value : Store → Value → Prop
  form_mono :
    ∀ {before after form'}, before.Precedes after → form before form' → form after form'
  value_mono :
    ∀ {before after value'}, before.Precedes after → value before value' → value after value'
  form_part :
    ∀ {store whole part}, form store whole → part ∈ whole.parts → form store part
  value_constant :
    ∀ {store constant}, form store constant → constant.isConstant = true → value store constant
  value_nil : ∀ store, value store .nil
  value_boolean : ∀ store truth, value store (.boolean truth)
  value_number : ∀ store integer, value store (.number integer)
  value_list :
    ∀ {store items}, (∀ item ∈ items, value store item) → value store (.list items)
  value_vector :
    ∀ {store items}, (∀ item ∈ items, value store item) → value store (.vector items)
  value_map :
    ∀ {store pairs},
      (∀ pair ∈ pairs, value store pair.1 ∧ value store pair.2) →
        value store (.map (Entries.ofPairs pairs))
  value_raw :
    ∀ {store arguments},
      (∀ argument ∈ arguments, value store argument) →
        value store (.string (String.ofList (Printed.raw arguments)))
  value_escaped :
    ∀ {store arguments},
      (∀ argument ∈ arguments, value store argument) →
        value store (.string (String.ofList (Printed.escaped arguments)))
  value_closure :
    ∀ {store names parameters body home},
      Parameters.ofNames? names = some parameters → form store body → home < store.nextFrame →
        value store.addFunction (.closure store.functions parameters body (some home))
  closure_body :
    ∀ {store identity parameters body home},
      value store (.closure identity parameters body (some home)) →
        form store body ∧ home < store.nextFrame

namespace Invariant

variable {invariant : Invariant}

/-- All bound values have the property, and parents are older than their children. -/
structure Holds (invariant : Invariant) (store : Store) : Prop where
  bound :
    ∀ {frame content name value},
      store.frame? frame = some content → content.bindings.get? name = some value →
        invariant.value store value
  parent :
    ∀ {frame content parent},
      store.frame? frame = some content → content.parent = some parent → parent < frame

namespace Holds

variable {store : Store}

theorem binds (holds : invariant.Holds store) :
    store.Binds fun _ value => invariant.value store value :=
  fun _ _ _ _ found bound => holds.bound found bound

/-- In a later store the values that were bound have the property still. -/
theorem binds_later
    (holds : invariant.Holds store)
    {after : Store}
    (precedes : store.Precedes after) :
    store.Binds fun _ value => invariant.value after value :=
  holds.binds.mono fun _ _ good => invariant.value_mono precedes good

theorem lookup?
    (holds : invariant.Holds store)
    {frame : FrameId}
    {name : String}
    {value : Value}
    (found : store.lookup? frame name = some value) :
    invariant.value store value :=
  holds.binds.lookup? found

theorem define
    (holds : invariant.Holds store)
    (frame : FrameId)
    (name : String)
    {value : Value}
    (good : invariant.value store value) :
    invariant.Holds (store.define frame name value) where
  bound := by
    intro _ _ _ _ found bound
    have precedes : store.Precedes (store.define frame name value) := .define store frame name value
    have goodLater := invariant.value_mono precedes good
    exact (holds.binds_later precedes).define frame name goodLater _ _ _ _ found bound
  parent := by
    intro other content parent found isParent
    rw [Store.frame?_define] at found
    split at found
    · obtain ⟨old, oldFound, rfl⟩ := Option.map_eq_some_iff.1 found
      exact holds.parent oldFound isParent
    · exact holds.parent found isParent

theorem addFrame
    (holds : invariant.Holds store)
    {content : Frame}
    (good :
      ∀ {name value}, content.bindings.get? name = some value → invariant.value store value)
    (older : ∀ {parent}, content.parent = some parent → parent < store.nextFrame) :
    invariant.Holds (store.addFrame content) where
  bound := by
    intro _ _ _ _ found bound
    have precedes : store.Precedes (store.addFrame content) := .addFrame store content
    have goodLater : ∀ name value, content.bindings.get? name = some value →
        invariant.value (store.addFrame content) value :=
      fun _ _ bound => invariant.value_mono precedes (good bound)
    exact (holds.binds_later precedes).addFrame goodLater _ _ _ _ found bound
  parent := by
    intro frame other parent found isParent
    rw [Store.frame?_addFrame] at found
    split at found
    · next isNew =>
        cases found
        exact isNew ▸ older isParent
    · exact holds.parent found isParent

theorem of_frames_eq
    (holds : invariant.Holds store)
    {after : Store}
    (precedes : store.Precedes after)
    (same : after.frames = store.frames) :
    invariant.Holds after where
  bound := fun found bound =>
    (holds.binds_later precedes).of_frames_eq same _ _ _ _ found bound
  parent := by
    intro frame content parent found isParent
    rw [Store.frame?, same] at found
    exact holds.parent found isParent

end Holds

/-! ## Actions -/

/-- The faults of evaluation, if all forms and values have the properties. -/
inductive Allows (invariant : Invariant) : Fault → Prop where
  | ordinary
      {fault : Fault}
      (ordinary : fault.IsOrdinary) :
      Allows invariant fault
  | comment
      {store : Store}
      {text : String}
      (good : invariant.form store (.comment text)) :
      Allows invariant (.ofComment text)
  | home
      {store : Store}
      {identity : Nat}
      {parameters : Parameters}
      {body : Value}
      (good : invariant.value store (.closure identity parameters body none)) :
      Allows invariant (.internal .home)
  | routine
      {store : Store}
      {identity : Nat}
      {name : String}
      (good : invariant.value store (.native identity (.foreign name))) :
      Allows invariant (.internal .routine)

/-- The invariant holds in the store that is left, and a fault is one that it allows. -/
structure Leaves
    {Result : Type}
    (invariant : Invariant)
    (outcome : Except Fault Result)
    (after : Store) :
    Prop where
  holds : invariant.Holds after
  allows : ∀ fault, outcome = .error fault → invariant.Allows fault

/-- Wherever the action ends, the invariant holds, and a result has a given property. -/
def Maintains
    {Result : Type}
    (invariant : Invariant)
    (store : Store)
    (property : Store → Result → Prop)
    (action : Action Result) :
    Prop :=
  invariant.Holds store →
    ∀ outcome after,
      action.outcome store = some (outcome, after) →
        store.Precedes after ∧ invariant.Leaves outcome after ∧
          ∀ result, outcome = .ok result → property after result

namespace Maintains

variable
  {First Second Result : Type}
  {store : Store}
  {property : Store → Result → Prop}

/-- An action that changes nothing. -/
theorem of_outcome_eq
    {action : Action Result}
    {given : Except Fault Result}
    (same : action.outcome store = some (given, store))
    (allows : ∀ fault, given = .error fault → invariant.Allows fault)
    (good : ∀ result, given = .ok result → property store result) :
    invariant.Maintains store property action := by
  intro holds outcome after ends
  rw [same] at ends
  cases ends
  exact ⟨.refl store, ⟨holds, allows⟩, good⟩

/-- An action that gives a result. -/
theorem of_outcome_eq_ok
    {action : Action Result}
    {result : Result}
    {after : Store}
    (same : action.outcome store = some (.ok result, after))
    (precedes : store.Precedes after)
    (left : invariant.Holds store → invariant.Holds after)
    (good : property after result) :
    invariant.Maintains store property action := by
  intro holds outcome after ends
  rw [same] at ends
  cases ends
  refine ⟨precedes, ⟨left holds, ?_⟩, ?_⟩
  · rintro _ ⟨⟩
  · rintro _ ⟨⟩
    exact good

theorem pure
    {result : Result}
    (good : property store result) :
    invariant.Maintains store property (pure result) :=
  of_outcome_eq_ok (Action.outcome_pure result store) (.refl store) id good

/-- A fault that the invariant allows. -/
theorem fail
    {fault : Fault}
    (allows : invariant.Allows fault) :
    invariant.Maintains store property (Action.fail fault) := by
  apply of_outcome_eq (Action.outcome_fail fault store)
  · rintro _ ⟨⟩
    exact allows
  · rintro _ ⟨⟩

/-- The results have a weaker property, too. -/
theorem mono
    {weaker : Store → Result → Prop}
    {action : Action Result}
    (maintains : invariant.Maintains store property action)
    (implies : ∀ after result, property after result → weaker after result) :
    invariant.Maintains store weaker action := by
  intro holds outcome after ends
  obtain ⟨precedes, leaves, good⟩ := maintains holds outcome after ends
  exact ⟨precedes, leaves, fun result made => implies after result (good result made)⟩

theorem write (text : String) :
    invariant.Maintains store (fun _ _ => True) (Action.write text) := by
  have precedes : store.Precedes (store.write text) := .write store text
  exact of_outcome_eq_ok (Action.outcome_write text store) precedes
    (fun holds => holds.of_frames_eq precedes rfl) trivial

theorem define
    (frame : FrameId)
    (name : String)
    {value : Value}
    (good : invariant.value store value) :
    invariant.Maintains store (fun _ _ => True) (Action.define frame name value) :=
  of_outcome_eq_ok (Action.outcome_define frame name value store)
    (.define store frame name value) (fun holds => holds.define frame name good) trivial

theorem lookup
    (frame : FrameId)
    (name : String) :
    invariant.Maintains store invariant.value (Action.lookup frame name) := by
  intro holds outcome after ends
  rw [Action.outcome_lookup] at ends
  split at ends
  · next value found =>
      cases ends
      refine ⟨.refl store, ⟨holds, ?_⟩, ?_⟩
      · rintro _ ⟨⟩
      · rintro result ⟨⟩
        exact holds.lookup? found
  · cases ends
    refine ⟨.refl store, ⟨holds, ?_⟩, ?_⟩
    · rintro fault ⟨⟩
      exact .ordinary trivial
    · rintro _ ⟨⟩

theorem openFrame
    {parent : FrameId}
    {bindings : Bindings}
    (made : parent < store.nextFrame)
    (good :
      ∀ {name value}, bindings.get? name = some value → invariant.value store value) :
    invariant.Maintains store (fun after frame => frame < after.nextFrame)
      (Action.openFrame parent bindings) := by
  apply of_outcome_eq_ok (Action.outcome_openFrame parent bindings store) (.addFrame store _)
  · intro holds
    apply holds.addFrame good
    rintro other ⟨⟩
    exact made
  · simp

theorem makeClosure
    {names : List String}
    {parameters : Parameters}
    {body : Value}
    {home : FrameId}
    (denoted : Parameters.ofNames? names = some parameters)
    (good : invariant.form store body)
    (made : home < store.nextFrame) :
    invariant.Maintains store invariant.value (Action.makeClosure parameters body home) := by
  have precedes : store.Precedes store.addFunction := .addFunction store
  exact of_outcome_eq_ok (Action.outcome_makeClosure parameters body home store) precedes
    (fun holds => holds.of_frames_eq precedes rfl) (invariant.value_closure denoted good made)

theorem bind
    {early : Store → First → Prop}
    {late : Store → Second → Prop}
    {action : Action First}
    {next : First → Action Second}
    (first : invariant.Maintains store early action)
    (second :
      ∀ after result,
        store.Precedes after → early after result →
          invariant.Maintains after late (next result)) :
    invariant.Maintains store late (action >>= next) := by
  intro holds outcome after ends
  rcases Action.outcome_bind_cases ends with ⟨fault, rfl, failed⟩ | ⟨value, between, made, later⟩
  · obtain ⟨precedes, leaves, -⟩ := first holds _ after failed
    refine ⟨precedes, ⟨leaves.holds, ?_⟩, ?_⟩
    · rintro _ ⟨⟩
      exact leaves.allows fault rfl
    · rintro _ ⟨⟩
  · obtain ⟨precedes, leavesBetween, good⟩ := first holds _ between made
    obtain ⟨precedesLate, leavesAfter, goodLate⟩ :=
      second between value precedes (good value rfl) leavesBetween.holds outcome after later
    exact ⟨precedes.trans precedesLate, leavesAfter, goodLate⟩

end Maintains

/-! ## Evaluation -/

theorem value_of_yields
    {store : Store}
    {arguments : List Value}
    {value : Value}
    (yields : Builtin.Yields arguments value)
    (good : ∀ argument ∈ arguments, invariant.value store argument) :
    invariant.value store value := by
  cases yields with
  | nil => exact invariant.value_nil store
  | boolean truth => exact invariant.value_boolean store truth
  | number integer => exact invariant.value_number store integer
  | argument member => exact good value member
  | list => exact invariant.value_list good
  | raw => exact invariant.value_raw good
  | escaped => exact invariant.value_escaped good

/-- What is evaluated, now or in a call, has the property of forms. -/
def run (invariant : Invariant) : OneRun where
  World := Store
  Later := Store.Precedes
  later_refl := .refl
  later_trans := .trans
  placed := fun store frame => frame < store.nextFrame
  may := fun store _ role part =>
    match role with
    | .target => True
    | _ => invariant.form store part
  good := invariant.value
  allows := invariant.Allows
  placed_mono := fun precedes made => Nat.lt_of_lt_of_le made precedes.frames
  may_mono := by
    intro before after frame role part precedes good
    cases role with
    | target => trivial
    | _ => exact invariant.form_mono precedes good
  good_mono := invariant.value_mono
  good_of_yields := value_of_yields
  good_vector := invariant.value_vector
  good_map := invariant.value_map
  good_constant := invariant.value_constant
  closure := fun good => ⟨(invariant.closure_body good).2, (invariant.closure_body good).1⟩
  homeless := .home
  foreign := .routine
  allows_ordinary := .ordinary
  allows_comment := .comment

/-- Actions maintain an invariant. -/
def assessment (invariant : Invariant) : Assessment where
  toOneRun := invariant.run
  holds := invariant.Maintains
  pure := .pure
  fail := fun _ allows => .fail allows
  bind := fun maintains rest =>
    maintains.bind fun after result precedes has => rest after result precedes has
  lookup := fun _ => .lookup _ _
  define := fun _ good => .define _ _ good
  openFrame := by
    intro store frame pairs made good
    apply (Maintains.openFrame made ?_).mono
    · exact fun after inner innerMade => ⟨innerMade, id, fun _ => trivial⟩
    · exact fun found => good _ (Bindings.mem_of_get?_ofPairs found)
  makeClosure := fun made denoted good => .makeClosure denoted good made
  write := .write

/-- The parts of a form that has the property have it. -/
theorem form_of_hasPart
    {store : Store}
    {whole part : Value}
    {role : Role}
    (good : invariant.form store whole)
    (isPart : whole.HasPart role part)
    (noTarget : role ≠ .target) :
    invariant.form store part := by
  cases isPart with
  | symbol => exact good
  | comment => exact good
  | constant => exact good
  | item member => exact invariant.form_part good member
  | key member => exact invariant.form_part good (Entries.key_mem_items member)
  | entry member => exact invariant.form_part good (Entries.value_mem_items member)
  | called _ member => exact invariant.form_part good member
  | target => exact absurd rfl noTarget
  | defined => exact invariant.form_part good (by simp)
  | step _ member => exact invariant.form_part good (List.mem_cons_of_mem _ member)
  | branch _ _ member => exact invariant.form_part good (List.mem_cons_of_mem _ member)
  | @localForm head bindings _ _ _ sequence among body =>
      have goodBindings : invariant.form store bindings := invariant.form_part good (by simp)
      exact invariant.form_part goodBindings (Value.mem_parts_of_items? sequence among.mem)
  | localBody => exact invariant.form_part good (by simp)
  | functionBody => exact invariant.form_part good (by simp)

theorem passesToParts_assessment (invariant : Invariant) :
    invariant.assessment.PassesToParts := by
  intro store frame form good role part isPart
  cases role with
  | target => trivial
  | _ => exact form_of_hasPart good isPart nofun

end Invariant

/-- Every form with the property evaluates to a value with the property. -/
def Evaluator.Maintains
    (evaluate : Evaluator)
    (invariant : Invariant) :
    Prop :=
  ∀ store frame form,
    frame < store.nextFrame → invariant.form store form →
      invariant.Maintains store invariant.value (evaluate frame form)

namespace Invariant

theorem maintains_apply
    {invariant : Invariant}
    {evaluate : Evaluator}
    {store : Store}
    (maintains : evaluate.Maintains invariant)
    {function : Value}
    (goodFunction : invariant.value store function)
    {arguments : List Value}
    (good : ∀ argument ∈ arguments, invariant.value store argument) :
    invariant.Maintains store invariant.value (Call.apply evaluate function arguments) := by
  have evaluates : invariant.assessment.Evaluates evaluate := maintains
  exact evaluates.apply store goodFunction good

/-- Evaluation maintains every invariant. -/
theorem maintains_eval
    (invariant : Invariant)
    (depth : Nat) :
    Evaluator.Maintains (eval depth) invariant := by
  apply Assessment.evaluates_eval invariant.passesToParts_assessment
  rintro store _ _ _ ⟨⟩

end Invariant

end MiniLisp
