import MiniLisp.Eval.SpecialForm
import MiniLisp.Proofs.Builtin.Yields
import MiniLisp.Proofs.Eval.Frames
import MiniLisp.Proofs.Value.Parts

/-!
# Stores that differ in one name

This module supplies stores that differ in the values of one name alone, and actions
that do not see the difference.

The name may stand in a form as the first item of special forms, and nowhere else
(`Value.spares`).  The same is asked of the body of every closure that is bound to
another name (`Store.DiffersUnseen`).  What is bound to the name itself may be anything,
and may mention the name.

An action is blind to the name if it ends in the same way in both stores, with equal
results, and leaves stores that differ unseen again (`Action.IsBlindTo`).
-/

namespace MiniLisp

namespace Value

mutual

/-- The name stands nowhere in the form but as the first item of special forms. -/
def spares (name : String) : Value → Bool
  | symbol other => other != name
  | list (head :: parts) =>
    ((SpecialForm.ofHead? head).isSome || spares name head) && sparesParts name parts
  | vector items => sparesParts name items
  | map entries => sparesEntries name entries
  | closure _ _ body _ => spares name body
  | _ => true

/-- The name stands in none of the forms, in the same sense. -/
def sparesParts (name : String) : List Value → Bool
  | [] => true
  | part :: parts => spares name part && sparesParts name parts

/-- The name stands in none of the keys and values, in the same sense. -/
def sparesEntries (name : String) : List (Value × Value) → Bool
  | [] => true
  | (key, value) :: entries =>
    spares name key && spares name value && sparesEntries name entries

end

/-- The body of the value spares the name, if the value is a closure. -/
def bodySpares (name : String) : Value → Bool
  | closure _ _ body _ => body.spares name
  | _ => true

/-- The bodies of all closures in a value spare the name. -/
def closuresSpare (name : String) (value : Value) : Bool :=
  value.everywhere (bodySpares name)

variable {name : String}

theorem sparesParts_iff
    {parts : List Value} :
    sparesParts name parts = true ↔ ∀ part ∈ parts, part.spares name = true := by
  induction parts with
  | nil => simp [sparesParts]
  | cons part parts ih => simp [sparesParts, ih]

theorem sparesEntries_iff
    {entries : List (Value × Value)} :
    sparesEntries name entries = true ↔
      ∀ entry ∈ entries, entry.1.spares name = true ∧ entry.2.spares name = true := by
  induction entries with
  | nil => simp [sparesEntries]
  | cons entry entries ih => simp [sparesEntries, ih, and_assoc]

theorem spares_list_iff
    {head : Value}
    {parts : List Value} :
    (list (head :: parts)).spares name = true ↔
      ((SpecialForm.ofHead? head).isSome = true ∨ head.spares name = true) ∧
        ∀ part ∈ parts, part.spares name = true := by
  rw [spares, Bool.and_eq_true, Bool.or_eq_true, sparesParts_iff]

theorem closuresSpare_of_parts
    {value : Value}
    (plain : value.isFunction = false)
    (inParts : ∀ part ∈ value.parts, part.closuresSpare name = true) :
    value.closuresSpare name = true := by
  refine everywhere_iff.2 ⟨?_, inParts⟩
  cases value with
  | closure => cases plain
  | _ => rfl

/-- What builtin functions make of arguments brings in no closures. -/
theorem closuresSpare_of_yields
    {arguments : List Value}
    {result : Value}
    (yields : Builtin.Yields arguments result)
    (good : ∀ argument ∈ arguments, argument.closuresSpare name = true) :
    result.closuresSpare name = true := by
  cases yields with
  | argument member => exact good result member
  | list => exact closuresSpare_of_parts rfl good
  | _ => rfl

end Value

/-! ## Stores that differ in one name -/

/-- The frames have the same parent, and the same values but for one name. -/
structure Frame.SameBut (name : String) (first second : Frame) : Prop where
  parent : second.parent = first.parent
  bound : ∀ other, other ≠ name → second.bindings.get? other = first.bindings.get? other

/-- The stores are the same but for what is bound to one name. -/
structure Store.SameBut (name : String) (first second : Store) : Prop where
  functions : second.functions = first.functions
  output : second.output = first.output
  frames :
    ∀ frame, Option.Rel (Frame.SameBut name) (first.frame? frame) (second.frame? frame)

/-- The store with a name bound in several frames, one after the other. -/
def Store.rebind
    (store : Store)
    (name : String)
    (changes : List (FrameId × Value)) :
    Store :=
  changes.foldl (fun store change => store.define change.1 name change.2) store

/-- The closures that are bound to other names spare the name. -/
def Store.ClosuresSpare (name : String) (store : Store) : Prop :=
  ∀ frame content other value,
    store.frame? frame = some content → other ≠ name →
      content.bindings.get? other = some value → value.closuresSpare name = true

/-- The condition on closures can be checked binding by binding. -/
theorem Store.closuresSpare_of_all
    {name : String}
    {store : Store}
    (all :
      store.frames.all
        (fun content =>
          content.bindings.all fun binding =>
            binding.2.closuresSpare name || binding.1 == name) = true) :
    store.ClosuresSpare name := by
  intro frame content other value found different bound
  have inFrame := Array.all_eq_true_iff_forall_mem.1 all content (Array.mem_of_getElem? found)
  rw [Bindings.get?, List.lookup_eq_some_iff] at bound
  obtain ⟨before, after, whole, -⟩ := bound
  have checked := List.all_eq_true.1 inFrame (other, value) (by simp [whole])
  simpa [different] using checked

/-- The stores differ in one name alone, and their closures do not mention it. -/
structure Store.DiffersUnseen
    (name : String)
    (first second : Store) :
    Prop extends
    first.SameBut name second where
  spare : first.ClosuresSpare name

namespace Store

variable
  {name : String}
  {first second : Store}

theorem SameBut.refl
    (name : String)
    (store : Store) :
    store.SameBut name store where
  functions := rfl
  output := rfl
  frames := by
    intro frame
    cases store.frame? frame with
    | none => exact .none
    | some content => exact .some ⟨rfl, fun _ _ => rfl⟩

theorem SameBut.nextFrame_eq (same : first.SameBut name second) :
    second.nextFrame = first.nextFrame := by
  have bounds (frame : FrameId) : second.nextFrame ≤ frame ↔ first.nextFrame ≤ frame := by
    have related := same.frames frame
    rw [nextFrame, nextFrame, ← Array.getElem?_eq_none_iff, ← Array.getElem?_eq_none_iff]
    change second.frame? frame = none ↔ first.frame? frame = none
    generalize first.frame? frame = content at related ⊢
    generalize second.frame? frame = content' at related ⊢
    cases related with
    | none => exact Iff.rfl
    | some => simp
  exact Nat.le_antisymm ((bounds _).2 (Nat.le_refl _)) ((bounds _).1 (Nat.le_refl _))

/-- One more value for the name makes no other difference. -/
theorem SameBut.define_name
    (same : first.SameBut name second)
    (frame : FrameId)
    (value : Value) :
    first.SameBut name (second.define frame name value) where
  functions := same.functions
  output := same.output
  frames := by
    intro other
    rw [frame?_define]
    split
    · have related := same.frames other
      generalize first.frame? other = content at related ⊢
      generalize second.frame? other = content' at related ⊢
      cases related with
      | none => exact .none
      | some holds =>
          refine .some ⟨holds.parent, fun asked different => ?_⟩
          rw [Bindings.get?_define, if_neg different]
          exact holds.bound asked different
    · exact same.frames other

theorem sameBut_rebind
    (store : Store)
    (name : String)
    (changes : List (FrameId × Value)) :
    store.SameBut name (store.rebind name changes) := by
  unfold rebind
  have fold
      {second : Store}
      (same : store.SameBut name second) :
      store.SameBut name
        (changes.foldl (fun store change => store.define change.1 name change.2) second) := by
    induction changes generalizing second with
    | nil => exact same
    | cons change changes ih => exact ih (same.define_name change.1 change.2)
  exact fold (.refl name store)

/-- All other names are looked up alike. -/
theorem SameBut.lookup?
    (same : first.SameBut name second)
    {other : String}
    (different : other ≠ name)
    (frame : FrameId) :
    second.lookup? frame other = first.lookup? frame other := by
  induction frame using Nat.strongRecOn with
  | ind frame ih =>
      have related := same.frames frame
      rw [Store.lookup?, Store.lookup?.eq_def first]
      generalize first.frame? frame = content at related ⊢
      generalize second.frame? frame = content' at related ⊢
      cases related with
      | none => rfl
      | some holds =>
          simp only [holds.parent, holds.bound other different]
          split
          · rfl
          · split
            · rfl
            · split
              · next older => exact ih _ older
              · rfl

namespace DiffersUnseen

theorem binds (differs : first.DiffersUnseen name second) :
    first.Binds fun other value => other ≠ name → value.closuresSpare name = true :=
  fun frame content other value found bound different =>
    differs.spare frame content other value found different bound

theorem closuresSpare_of_lookup?
    (differs : first.DiffersUnseen name second)
    {frame : FrameId}
    {other : String}
    (different : other ≠ name)
    {value : Value}
    (found : first.lookup? frame other = some value) :
    value.closuresSpare name = true :=
  differs.binds.lookup? found different

/-- Where no frame changes, the difference stays unseen. -/
theorem of_frames_eq
    (differs : first.DiffersUnseen name second)
    {first' second' : Store}
    (sameFirst : first'.frames = first.frames)
    (sameSecond : second'.frames = second.frames)
    (functions : second'.functions = first'.functions)
    (output : second'.output = first'.output) :
    first'.DiffersUnseen name second' where
  functions := functions
  output := output
  frames := by
    intro frame
    rw [frame?, frame?, sameFirst, sameSecond]
    exact differs.frames frame
  spare := fun frame content other value found different bound =>
    differs.binds.of_frames_eq sameFirst frame content other value found bound different

theorem addFrame
    (differs : first.DiffersUnseen name second)
    {content : Frame}
    (spare :
      ∀ other value, content.bindings.get? other = some value → value.closuresSpare name = true) :
    (first.addFrame content).DiffersUnseen name (second.addFrame content) where
  functions := differs.functions
  output := differs.output
  frames := by
    intro frame
    rw [frame?_addFrame, frame?_addFrame, differs.nextFrame_eq]
    split
    · exact .some ⟨rfl, fun _ _ => rfl⟩
    · exact differs.frames frame
  spare := by
    intro frame other asked value found different bound
    have binds := differs.binds.addFrame fun asked value bound _ => spare asked value bound
    exact binds frame other asked value found bound different

theorem define
    (differs : first.DiffersUnseen name second)
    (frame : FrameId)
    (defined : String)
    {value : Value}
    (spare : value.closuresSpare name = true) :
    (first.define frame defined value).DiffersUnseen name (second.define frame defined value) where
  functions := differs.functions
  output := differs.output
  frames := by
    intro other
    rw [frame?_define, frame?_define]
    split
    · have related := differs.frames other
      generalize first.frame? other = content at related ⊢
      generalize second.frame? other = content' at related ⊢
      cases related with
      | none => exact .none
      | some holds =>
          refine .some ⟨holds.parent, fun asked different => ?_⟩
          simp only [Bindings.get?_define, holds.bound asked different]
    · exact differs.frames other
  spare := by
    intro other content asked result found different bound
    have binds := differs.binds.define frame defined fun _ => spare
    exact binds other content asked result found bound different

end DiffersUnseen

end Store

/-! ## Actions that do not see the difference -/

/-- The same result or fault, in stores that differ unseen again, and a good result. -/
structure EndsBlind
    {Result : Type}
    (name : String)
    (good : Result → Prop)
    (ending other : Except Fault Result × Store) :
    Prop where
  result : other.1 = ending.1
  differs : ending.2.DiffersUnseen name other.2
  good : ∀ value, ending.1 = .ok value → good value

/-- The action ends in the same way in stores that differ unseen. -/
def Action.IsBlindTo
    {Result : Type}
    (name : String)
    (good : Result → Prop)
    (action : Action Result) :
    Prop :=
  ∀ first second,
    first.DiffersUnseen name second →
      Option.Rel (EndsBlind name good) (action.outcome first) (action.outcome second)

/-- The closures in the value spare the name. -/
abbrev Value.IsSpare (name : String) (value : Value) : Prop :=
  value.closuresSpare name = true

/-- Forms that spare the name are evaluated without seeing its value. -/
def Evaluator.IsBlindTo (name : String) (evaluate : Evaluator) : Prop :=
  ∀ frame form,
    form.spares name = true →
      (evaluate frame form).IsBlindTo name (Value.IsSpare name)

namespace Action.IsBlindTo

variable
  {First Second Result : Type}
  {name : String}

/-- An action that changes nothing and ends with the same result in both stores. -/
theorem of_outcome_eq
    {good : Result → Prop}
    {action : Action Result}
    (same :
      ∀ first second,
        first.DiffersUnseen name second →
          ∃ result,
            action.outcome first = some (result, first) ∧
              action.outcome second = some (result, second) ∧
                ∀ value, result = .ok value → good value) :
    action.IsBlindTo name good := by
  intro first second differs
  obtain ⟨result, ends, ends', isGood⟩ := same first second differs
  rw [ends, ends']
  exact .some ⟨rfl, differs, isGood⟩

/-- An action that gives the same result and changes both stores. -/
theorem of_outcome_eq_ok
    {good : Result → Prop}
    {action : Action Result}
    {result : Store → Result}
    {change : Store → Store}
    (ends : ∀ store, action.outcome store = some (.ok (result store), change store))
    (same :
      ∀ first second,
        first.DiffersUnseen name second →
          result second = result first ∧
            (change first).DiffersUnseen name (change second) ∧ good (result first)) :
    action.IsBlindTo name good := by
  intro first second differs
  obtain ⟨sameResult, later, isGood⟩ := same first second differs
  rw [ends, ends, sameResult]
  refine .some ⟨rfl, later, ?_⟩
  rintro _ ⟨⟩
  exact isGood

theorem ofExcept
    {good : Result → Prop}
    {result : Except Fault Result}
    (isGood : ∀ value, result = .ok value → good value) :
    (ofExcept result).IsBlindTo name good :=
  of_outcome_eq fun first second _ =>
    ⟨result, outcome_ofExcept result first, outcome_ofExcept result second, isGood⟩

theorem pure
    {good : Result → Prop}
    {result : Result}
    (isGood : good result) :
    (pure result : Action Result).IsBlindTo name good := by
  have same : ∀ value, (Except.ok result : Except Fault Result) = .ok value → good value := by
    rintro _ ⟨⟩
    exact isGood
  exact ofExcept same

theorem fail
    {good : Result → Prop}
    (fault : Fault) :
    (fail fault : Action Result).IsBlindTo name good := by
  have never : ∀ value, (Except.error fault : Except Fault Result) = .ok value → good value :=
    nofun
  exact ofExcept never

/-- Names are looked up alike, if they are other names. -/
theorem lookup
    (frame : FrameId)
    {other : String}
    (different : other ≠ name) :
    (lookup frame other).IsBlindTo name (Value.IsSpare name) := by
  apply of_outcome_eq
  intro first second differs
  rw [outcome_lookup, outcome_lookup, differs.lookup? different]
  cases found : first.lookup? frame other with
  | none => exact ⟨_, rfl, rfl, nofun⟩
  | some value =>
      refine ⟨_, rfl, rfl, ?_⟩
      rintro _ ⟨⟩
      exact differs.closuresSpare_of_lookup? different found

/-- Any name may be bound, even the name itself. -/
theorem define
    (frame : FrameId)
    (defined : String)
    {value : Value}
    (spare : value.closuresSpare name = true) :
    (define frame defined value).IsBlindTo name fun _ => True :=
  of_outcome_eq_ok (outcome_define frame defined value) fun _ _ differs =>
    ⟨rfl, differs.define frame defined spare, trivial⟩

theorem openFrame
    {good : FrameId → Prop}
    (parent : FrameId)
    {bindings : Bindings}
    (spare :
      ∀ other value, bindings.get? other = some value → value.closuresSpare name = true)
    (isGood : ∀ frame, good frame) :
    (openFrame parent bindings).IsBlindTo name good :=
  of_outcome_eq_ok (outcome_openFrame parent bindings) fun _ _ differs =>
    ⟨differs.nextFrame_eq, differs.addFrame spare, isGood _⟩

theorem makeClosure
    (parameters : Parameters)
    {body : Value}
    (spares : body.spares name = true)
    (home : FrameId) :
    (makeClosure parameters body home).IsBlindTo name (Value.IsSpare name) := by
  apply of_outcome_eq_ok (outcome_makeClosure parameters body home)
  intro first second differs
  refine ⟨by rw [differs.functions], ?_, spares⟩
  exact differs.of_frames_eq rfl rfl (congrArg (· + 1) differs.functions) differs.output

theorem write (text : String) :
    (write text).IsBlindTo name fun _ => True := by
  apply of_outcome_eq_ok (outcome_write text)
  intro first second differs
  refine ⟨rfl, ?_, trivial⟩
  exact differs.of_frames_eq rfl rfl differs.functions (congrArg (· ++ text) differs.output)

theorem bind
    {early : First → Prop}
    {late : Second → Prop}
    {action : Action First}
    {next : First → Action Second}
    (blind : action.IsBlindTo name early)
    (rest : ∀ result, early result → (next result).IsBlindTo name late) :
    (action >>= next).IsBlindTo name late := by
  intro first second differs
  rw [outcome_bind, outcome_bind]
  have ends := blind first second differs
  generalize action.outcome first = outcome at ends ⊢
  generalize action.outcome second = outcome' at ends ⊢
  cases ends with
  | none => exact .none
  | @some ending ending' same =>
      obtain ⟨result, between⟩ := ending
      obtain ⟨result', between'⟩ := ending'
      obtain rfl : result' = result := same.result
      cases result' with
      | error fault => exact .some ⟨rfl, same.differs, nofun⟩
      | ok value => exact rest value (same.good value rfl) between between' same.differs

end Action.IsBlindTo

end MiniLisp
