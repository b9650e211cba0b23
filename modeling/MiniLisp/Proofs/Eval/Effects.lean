import MiniLisp.Proofs.Eval.OneRun

/-!
# Effects of evaluation

This module shows that evaluation changes one frame only, and in this frame only
names that stand in the form as names of definitions.

The range of names is read off the form (`Value.definedNames`).  Local
definitions and the bodies of functions contribute nothing, because they run in
frames of their own.  The same holds of the application of a function, whatever
the function does: its body runs in a frame that is opened for the call, so every
frame that was there keeps its bindings and its parent.

Every step is compared with the store in which the evaluation of the form starts
(`Assessment.confinement`).  Frames that have been opened since may be changed in any
way, and in the frame of the form the names of the form may be defined.  Evaluation at
every depth is confined by induction on the depth (`isConfined_eval`).
-/

namespace MiniLisp

namespace Value

mutual

/-- The names that the evaluation of a form may bind in the frame of the evaluation. -/
def definedNames : Value → List String
  | list (head :: parts) =>
    match SpecialForm.ofHead? head, parts with
    | some .define, [symbol name, form] => name :: definedNames form
    | some .letIn, _ => []
    | some .function, _ => []
    | _, parts => definedNames head ++ definedByParts parts
  | vector items => definedByParts items
  | map entries => definedByEntries entries
  | _ => []

/-- The names that the evaluation of several forms may bind. -/
def definedByParts : List Value → List String
  | [] => []
  | part :: parts => definedNames part ++ definedByParts parts

/-- The names that the evaluation of keys and values may bind. -/
def definedByEntries : List (Value × Value) → List String
  | [] => []
  | (key, value) :: entries =>
    definedNames key ++ definedNames value ++ definedByEntries entries

end

theorem definedNames_list
    (head : Value)
    (parts : List Value) :
    (list (head :: parts)).definedNames =
      match SpecialForm.ofHead? head, parts with
      | some .define, [symbol name, form] => name :: form.definedNames
      | some .letIn, _ => []
      | some .function, _ => []
      | _, parts => head.definedNames ++ definedByParts parts := by
  rw [definedNames.eq_def]

theorem mem_definedByParts
    {name : String}
    {parts : List Value}
    {part : Value}
    (member : part ∈ parts)
    (defined : name ∈ part.definedNames) :
    name ∈ definedByParts parts := by
  induction parts with
  | nil =>
      cases member
  | cons other parts ih =>
      rw [definedByParts, List.mem_append]
      rcases List.mem_cons.1 member with rfl | later
      · exact Or.inl defined
      · exact Or.inr (ih later)

theorem mem_definedByEntries
    {name : String}
    {entries : List (Value × Value)}
    {entry : Value × Value}
    (member : entry ∈ entries)
    (defined : name ∈ entry.1.definedNames ∨ name ∈ entry.2.definedNames) :
    name ∈ definedByEntries entries := by
  induction entries with
  | nil =>
      cases member
  | cons other entries ih =>
      rw [definedByEntries, List.mem_append, List.mem_append]
      rcases List.mem_cons.1 member with rfl | later
      · exact Or.inl defined
      · exact Or.inr (ih later)

theorem exists_symbol_of_ofHead?
    {head : Value}
    {form : SpecialForm}
    (special : SpecialForm.ofHead? head = some form) :
    ∃ name, head = symbol name := by
  cases head with
  | symbol name => exact ⟨name, rfl⟩
  | _ => cases special

theorem mem_definedNames_definition
    {head : Value}
    (special : SpecialForm.ofHead? head = some .define)
    (name : String)
    (form : Value) :
    name ∈ (list [head, symbol name, form]).definedNames := by
  rw [definedNames_list, special]
  exact List.mem_cons_self

/-- Where the parts of a list are evaluated in its frame, their names are names of the list. -/
theorem mem_definedNames_list
    {head : Value}
    {parts : List Value}
    (noLet : SpecialForm.ofHead? head ≠ some .letIn)
    (noFunction : SpecialForm.ofHead? head ≠ some .function)
    {part : Value}
    (member : part ∈ head :: parts)
    {name : String}
    (defined : name ∈ part.definedNames) :
    name ∈ (list (head :: parts)).definedNames := by
  rw [definedNames_list]
  split
  · next special =>
      obtain ⟨symbol, rfl⟩ := exists_symbol_of_ofHead? special
      simp only [List.mem_cons, List.not_mem_nil, or_false] at member
      rcases member with rfl | rfl | rfl
      · cases defined
      · cases defined
      · exact List.mem_cons_of_mem _ defined
  · next special => exact absurd special noLet
  · next special => exact absurd special noFunction
  · rw [List.mem_append]
    rcases List.mem_cons.1 member with rfl | later
    · exact Or.inl defined
    · exact Or.inr (mem_definedByParts later defined)

end Value

namespace Value.HasPart

variable {form part : Value}

/-- The names that a part defines where the form stands are names of the form. -/
theorem definedNames_subset
    (isPart : form.HasPart .here part)
    {name : String}
    (defined : name ∈ part.definedNames) :
    name ∈ form.definedNames := by
  cases isPart with
  | item member =>
      rw [definedNames]
      exact mem_definedByParts member defined
  | key member =>
      rw [definedNames]
      exact mem_definedByEntries member (Or.inl defined)
  | entry member =>
      rw [definedNames]
      exact mem_definedByEntries member (Or.inr defined)
  | called plain member =>
      exact mem_definedNames_list (by simp [plain]) (by simp [plain]) member defined
  | defined special =>
      exact mem_definedNames_list (by simp [special]) (by simp [special]) (by simp) defined
  | step special member =>
      exact mem_definedNames_list (by simp [special]) (by simp [special]) (by simp [member]) defined
  | branch special _ member =>
      apply mem_definedNames_list (by simp [special]) (by simp [special]) ?_ defined
      exact List.mem_cons_of_mem _ member

theorem exists_mem_definedNames
    (isTarget : form.HasPart .target part) :
    ∃ name, part = .symbol name ∧ name ∈ form.definedNames := by
  cases isTarget with
  | target special name form =>
      exact ⟨name, rfl, mem_definedNames_definition special name form⟩

end Value.HasPart

/-! ## What has changed since a store -/

namespace Store.ChangesOnly

variable
  {base store after : Store}
  {own frame : FrameId}
  {names others : String → Prop}

/-- No frame has been lost. -/
theorem nextFrame_le (changes : base.ChangesOnly own names store) :
    base.nextFrame ≤ store.nextFrame := by
  apply Nat.le_of_not_lt
  intro fewer
  obtain ⟨content, found⟩ := exists_frame?_of_lt fewer
  by_cases isOwn : store.nextFrame = own
  · obtain ⟨changed, foundChanged, -⟩ := changes.own content (isOwn ▸ found)
    exact absurd (lt_nextFrame_of_frame? foundChanged) (by rw [isOwn]; exact Nat.lt_irrefl own)
  · have kept := changes.others _ content isOwn found
    exact absurd (lt_nextFrame_of_frame? kept) (Nat.lt_irrefl _)

/-- Changes in a frame that was opened since are no changes. -/
theorem trans_of_later
    (changes : base.ChangesOnly own names store)
    (isLater : base.nextFrame ≤ frame)
    (further : store.ChangesOnly frame others after) :
    base.ChangesOnly own names after where
  others := by
    intro other content different found
    have older := lt_nextFrame_of_frame? found
    exact further.others other content (Nat.ne_of_lt (Nat.lt_of_lt_of_le older isLater))
      (changes.others other content different found)
  own := by
    intro content found
    have older := lt_nextFrame_of_frame? found
    obtain ⟨changed, foundChanged, grows⟩ := changes.own content found
    refine ⟨changed, ?_, grows⟩
    exact further.others own changed (Nat.ne_of_lt (Nat.lt_of_lt_of_le older isLater)) foundChanged

theorem trans_keeps
    (changes : base.ChangesOnly own names store)
    (keeps : store.Keeps after) :
    base.ChangesOnly own names after :=
  IsTrans.trans base store after changes (keeps.changesOnly own names)

end Store.ChangesOnly

/-! ## Evaluation -/

/-- In one frame, names of a range may be defined, and in later frames anything may be done. -/
def OneRun.confinement
    (base : Store)
    (own : FrameId)
    (names : String → Prop) :
    OneRun where
  may := fun _ frame role part =>
    match role with
    | .target => base.nextFrame ≤ frame ∨ frame = own ∧ ∀ name, part = .symbol name → names name
    | .here => base.nextFrame ≤ frame ∨ frame = own ∧ ∀ name ∈ part.definedNames, names name
    | _ => True
  may_mono := fun _ may => may

/-- Since a store, the action changes names of a range in one frame, and gives such results. -/
def Action.ConfinedSince
    {Result : Type}
    (base : Store)
    (own : FrameId)
    (names : String → Prop)
    (property : Result → Prop)
    (action : Action Result) :
    Prop :=
  ∀ store outcome after,
    base.ChangesOnly own names store → action.outcome store = some (outcome, after) →
      base.ChangesOnly own names after ∧ ∀ result, outcome = .ok result → property result

namespace Action.ConfinedSince

variable
  {First Second Result : Type}
  {base : Store}
  {own : FrameId}
  {names : String → Prop}
  {property : Result → Prop}

/-- An action that keeps what it finds. -/
theorem of_respects
    {action : Action Result}
    (respects : action.Respects Store.Keeps)
    (holds : ∀ result, property result) :
    action.ConfinedSince base own names property :=
  fun store outcome after changes ends =>
    ⟨changes.trans_keeps (respects store outcome after ends), fun result _ => holds result⟩

theorem bind
    {early : First → Prop}
    {late : Second → Prop}
    {action : Action First}
    {next : First → Action Second}
    (confined : action.ConfinedSince base own names early)
    (rest : ∀ result, early result → (next result).ConfinedSince base own names late) :
    (action >>= next).ConfinedSince base own names late := by
  intro store outcome after changes ends
  rcases outcome_bind_cases ends with ⟨fault, rfl, failed⟩ | ⟨value, between, made, later⟩
  · exact ⟨(confined store _ after changes failed).1, by simp⟩
  · obtain ⟨changesBetween, holds⟩ := confined store _ between changes made
    exact rest value (holds value rfl) between outcome after changesBetween later

end Action.ConfinedSince

/-- Evaluation is confined to names of a range in one frame. -/
def Assessment.confinement
    (base : Store)
    (own : FrameId)
    (names : String → Prop) :
    Assessment where
  toOneRun := .confinement base own names
  holds := fun _ property action => action.ConfinedSince base own names (property ())
  pure := by
    rintro Result world property result has store _ _ changes ⟨⟩
    refine ⟨changes, ?_⟩
    rintro _ ⟨⟩
    exact has
  fail := by
    rintro Result world fault property - store _ _ changes ⟨⟩
    exact ⟨changes, nofun⟩
  bind := fun confined rest => confined.bind fun result has => rest () result trivial has
  lookup := fun _ => .of_respects (Action.respects_lookup _ _) fun _ => trivial
  define := by
    intro world frame name value may _ store outcome after changes ends
    rw [Action.outcome_define] at ends
    cases ends
    refine ⟨?_, fun _ _ => trivial⟩
    rcases may with isLater | ⟨isOwn, isName⟩
    · exact changes.trans_of_later isLater (.define rfl store frame value)
    · rw [isOwn]
      exact IsTrans.trans base store _ changes (.define (isName name rfl) store own value)
  openFrame := by
    rintro world frame pairs - - store _ _ changes ⟨⟩
    refine ⟨changes.trans_keeps (store.keeps_addFrame _), ?_⟩
    rintro _ ⟨⟩
    exact ⟨trivial, fun _ => Or.inl changes.nextFrame_le, fun _ => Or.inl changes.nextFrame_le⟩
  makeClosure := fun _ _ _ => .of_respects (Action.respects_makeClosure _ _ _) fun _ => trivial
  write := fun text => .of_respects (Action.respects_write text) fun _ => trivial

theorem Assessment.passesToParts_confinement
    (base : Store)
    (own : FrameId)
    (names : String → Prop) :
    (confinement base own names).PassesToParts := by
  intro _ frame form may role part isPart
  cases role with
  | target =>
      rcases may with isLater | ⟨isOwn, covered⟩
      · exact Or.inl isLater
      · obtain ⟨target, rfl, defined⟩ := isPart.exists_mem_definedNames
        refine Or.inr ⟨isOwn, ?_⟩
        rintro _ ⟨⟩
        exact covered target defined
  | here =>
      rcases may with isLater | ⟨isOwn, covered⟩
      · exact Or.inl isLater
      · exact Or.inr ⟨isOwn, fun name defined => covered name (isPart.definedNames_subset defined)⟩
  | _ => trivial

/-- Every form changes its own frame only, and there only the names that it defines. -/
def Evaluator.IsConfined (evaluate : Evaluator) : Prop :=
  ∀ frame form,
    (evaluate frame form).Respects (Store.ChangesOnly frame (· ∈ form.definedNames))

namespace Evaluator.IsConfined

variable {evaluate : Evaluator}

theorem evaluates
    (confined : evaluate.IsConfined)
    (base : Store)
    (own : FrameId)
    (names : String → Prop) :
    (Assessment.confinement base own names).Evaluates evaluate := by
  intro _ frame form _ may store outcome after changes ends
  refine ⟨?_, fun _ _ => trivial⟩
  have further := confined frame form store outcome after ends
  rcases may with isLater | ⟨isOwn, covered⟩
  · exact changes.trans_of_later isLater further
  · rw [isOwn] at further
    exact IsTrans.trans base store after changes (further.mono covered)

/-- What keeps all that was there, whatever it does in frames of its own. -/
theorem keeps_of_confinedSince
    {Result : Type}
    {property : Result → Prop}
    {action : Action Result}
    {store after : Store}
    {outcome : Except Fault Result}
    (confined : action.ConfinedSince store store.nextFrame (fun _ => False) property)
    (ends : action.outcome store = some (outcome, after)) :
    store.Keeps after := by
  have changes := (confined store outcome after (Std.Refl.refl store) ends).1
  have fresh : store.frame? store.nextFrame = none := Array.getElem?_size
  exact changes.keeps_of_fresh fresh fun _ _ found => found

/-- The application of a function keeps all frames that were there. -/
theorem respects_apply
    (confined : evaluate.IsConfined)
    (function : Value)
    (arguments : List Value) :
    (Call.apply evaluate function arguments).Respects Store.Keeps := by
  intro store outcome after ends
  have evaluates := confined.evaluates store store.nextFrame fun _ => False
  exact keeps_of_confinedSince (evaluates.apply () trivial fun _ _ => trivial) ends

/-- One more level of evaluation is confined if the evaluation of the parts is. -/
theorem evalForm (confined : evaluate.IsConfined) :
    Evaluator.IsConfined (Eval.evalForm evaluate) := by
  intro frame form store outcome after ends
  have evaluates := (confined.evaluates store frame (· ∈ form.definedNames)).evalForm
    (Assessment.passesToParts_confinement store frame (· ∈ form.definedNames))
  have evaluated := evaluates () trivial (Or.inr ⟨rfl, fun _ defined => defined⟩)
  exact (evaluated store outcome after (Std.Refl.refl store) ends).1

end Evaluator.IsConfined

theorem isConfined_eval (depth : Nat) :
    Evaluator.IsConfined (eval depth) := by
  induction depth with
  | zero =>
      intro frame form store outcome after ends
      cases ends
  | succ depth ih =>
      exact ih.evalForm

/--
Evaluation that ends, with a result or with a fault, keeps every frame but its own
with its bindings and its parent; its own frame keeps its parent and all bindings
of names that the form does not define, and loses no name.  The application of a
function keeps every frame that was there.
-/
theorem effects_confined :
    (∀ depth frame form store outcome after,
      (eval depth frame form).outcome store = some (outcome, after) →
        store.ChangesOnly frame (· ∈ form.definedNames) after) ∧
      (∀ depth function arguments store outcome after,
        (Call.apply (eval depth) function arguments).outcome store = some (outcome, after) →
          store.Keeps after) := by
  constructor
  · intro depth frame form
    exact isConfined_eval depth frame form
  · intro depth function arguments
    exact (isConfined_eval depth).respects_apply function arguments

/-- A single frame in which one name is bound. -/
def singleFrame : Store := ⟨#[⟨[("x", .nil)], none⟩], 1, ""⟩

/-- A definition whose value is a definition. -/
def nestedDefinition : Value :=
  .list [.symbol "def!", .symbol "y", .list [.symbol "def!", .symbol "x", .number 1]]

/-- A function that defines a name in the frame of its call, and fails afterwards. -/
def failingFunction : Value :=
  .closure 0 ⟨["p"], none⟩
    (.list [.symbol "do", .list [.symbol "def!", .symbol "x", .number 2], .comment ";"])
    (some 0)

theorem effects_confined_of_failing_call :
    ∃ after fault kept,
      (eval 4 0 nestedDefinition).outcome singleFrame = some (.ok (.number 1), after) ∧
        singleFrame.ChangesOnly 0 (· ∈ nestedDefinition.definedNames) after ∧
        (Call.apply (eval 4) failingFunction [.nil]).outcome singleFrame =
          some (.error fault, kept) ∧
        singleFrame.Keeps kept := by
  refine ⟨_, _, _, rfl, ?_, rfl, ?_⟩
  · exact effects_confined.1 4 0 nestedDefinition singleFrame _ _ rfl
  · exact effects_confined.2 4 failingFunction [.nil] singleFrame _ _ rfl

end MiniLisp
