import MiniLisp.Proofs.Eval.Closures
import MiniLisp.Proofs.Eval.CommonPast
import MiniLisp.Proofs.Eval.Simulation

/-!
# Local definitions and immediate calls

This module shows that a local definition of names and the immediate call of a
function with these names as parameters cannot be told apart, as long as no name
occurs in the forms of the values and no definition stands in the forms or in the
body.

The two are evaluated in different frames.  A local definition evaluates the forms
in the frame that it opens, and binds one name after the other there; a call
evaluates the forms in the frame of the call and opens a frame afterwards.  So
functions which the forms make have different homes, and while the forms are
evaluated the local definition has a frame more.  This frame is passed over:
nothing that the forms make asks it for one of the names.

The proof has two parts, one for the forms (`agree_forms`) and one for the body
(`shown_body_eq`), in which the two frames are paired with each other.
-/

namespace MiniLisp

open MiniLisp.Value (Matches)

/-! ## The two forms -/

namespace Value

/-- Names and forms that alternate. -/
def bindingItems (bindings : List (String × Value)) : List Value :=
  bindings.flatMap fun binding => [symbol binding.1, binding.2]

/-- The local definition of names around a body. -/
def letInForm (bindings : List (String × Value)) (body : Value) : Value :=
  list [symbol SpecialForm.letIn.name, list (bindingItems bindings), body]

/-- The function of the names with the body. -/
def functionForm (bindings : List (String × Value)) (body : Value) : Value :=
  list
    [symbol SpecialForm.function.name, list (bindings.map fun binding => symbol binding.1), body]

/-- The call of the function of the names with the forms as arguments. -/
def immediateCallForm (bindings : List (String × Value)) (body : Value) : Value :=
  list (functionForm bindings body :: bindings.map Prod.snd)

end Value

/-! ## The evaluation of local definitions -/

namespace SpecialForm

/-- The evaluation of forms, of which each value is bound before the next one is evaluated. -/
def bindEach
    (evaluate : Evaluator)
    (inner : FrameId)
    (bindings : List (String × Value)) :
    Action (List Value) :=
  bindings.mapM fun binding => do
    let value ← evaluate inner binding.2
    Action.define inner binding.1 value
    pure value

theorem evalBindings_bindingItems
    (evaluate : Evaluator)
    (inner : FrameId)
    (bindings : List (String × Value)) :
    evalBindings evaluate inner (Value.bindingItems bindings) =
      bindEach evaluate inner bindings >>= fun _ => pure () := by
  induction bindings with
  | nil => rfl
  | cons binding bindings ih =>
      have unfolded :
          evalBindings evaluate inner (Value.bindingItems (binding :: bindings)) =
            evaluate inner binding.2 >>= fun value =>
              Action.define inner binding.1 value >>= fun _ =>
                evalBindings evaluate inner (Value.bindingItems bindings) := rfl
      rw [unfolded, ih]
      simp only [bindEach, List.mapM_cons, bind_assoc, pure_bind]

/-- Once all forms are evaluated, the frame binds the names to the values, the last one first. -/
theorem frame?_of_bindEach
    {evaluate : Evaluator}
    (confined : evaluate.IsConfined)
    {inner : FrameId}
    {bindings : List (String × Value)}
    (noDefinitions : ∀ binding ∈ bindings, binding.2.definedNames = [])
    {store after : Store}
    {content : Frame}
    (found : store.frame? inner = some content)
    {values : List Value}
    (ends : (bindEach evaluate inner bindings).outcome store = some (.ok values, after)) :
    values.length = bindings.length ∧
      ∃ bound,
        after.frame? inner = some bound ∧ bound.parent = content.parent ∧
          ∀ name,
            bound.bindings.get? name =
              (((bindings.map Prod.fst).zip values).reverse.lookup name).or
                (content.bindings.get? name) := by
  induction bindings generalizing store content values with
  | nil =>
      cases ends
      exact ⟨rfl, content, found, rfl, fun _ => rfl⟩
  | cons binding bindings ih =>
      rw [bindEach, List.mapM_cons, ← bindEach] at ends
      simp only [bind_assoc, pure_bind] at ends
      obtain ⟨value, between, evaluated, later⟩ := Action.exists_of_outcome_bind_eq_ok ends
      obtain ⟨_, defined, isDefined, later⟩ := Action.exists_of_outcome_bind_eq_ok later
      obtain ⟨rest, last, restEnds, given⟩ := Action.exists_of_outcome_bind_eq_ok later
      rw [Action.outcome_define, Option.some.injEq, Prod.mk.injEq] at isDefined
      rw [Action.outcome_pure] at given
      obtain ⟨-, rfl⟩ := isDefined
      cases given
      -- The form leaves the bindings of the frame as they are.
      have changes := confined inner binding.2 store _ between evaluated
      rw [noDefinitions binding List.mem_cons_self] at changes
      obtain ⟨changed, foundChanged, grows⟩ := changes.own content found
      obtain ⟨sameLength, bound, foundBound, sameParent, gets⟩ :=
        ih (fun other member => noDefinitions other (List.mem_cons_of_mem binding member))
          (Store.frame?_define_self foundChanged binding.1 value) restEnds
      refine ⟨congrArg (· + 1) sameLength, bound, foundBound, sameParent.trans grows.parent, ?_⟩
      intro name
      rw [gets, List.map_cons, List.zip_cons_cons, List.reverse_cons, List.lookup_append,
        Option.or_assoc, Bindings.get?_define, grows.unnamed name List.not_mem_nil]
      congr 1
      by_cases asked : name = binding.1
      · simp [asked]
      · simp [List.lookup_cons, asked, beq_eq_false_iff_ne.2 asked]

end SpecialForm

namespace TwoRuns

/-! ## The forms of the values -/

/-- A definition in the first run alone, of a name for which its frame stands for no other. -/
theorem Corresponds.define_left
    {runs : TwoRuns}
    {pairing : Pairing}
    {first second : Store}
    (corresponds : runs.Corresponds pairing first second)
    {inner : FrameId}
    {name : String}
    (hidden : ∀ right scope, pairing inner right scope → ¬ scope.names name)
    (value : Value) :
    runs.Corresponds pairing (first.define inner name value) second where
  inStep := by
    obtain ⟨functions, frames, text, advances, advances'⟩ := corresponds.inStep
    exact ⟨_, _, _, advances.define _ _ _, advances'⟩
  agree := by
    intro left right scope paired
    -- No name of the scope is bound anew.
    have keeps
        {content : Frame}
        (found : first.frame? left = some content) :
        ∃ changed,
          (first.define inner name value).frame? left = some changed ∧
            changed.parent = content.parent ∧
              ∀ other, scope.names other →
                changed.bindings.get? other = content.bindings.get? other := by
      by_cases here : left = inner
      · obtain rfl := here
        refine ⟨_, Store.frame?_define_self found name value, rfl, fun other isName => ?_⟩
        rw [Bindings.get?_define, if_neg]
        rintro rfl
        exact hidden right scope paired isName
      · refine ⟨content, ?_, rfl, fun _ _ => rfl⟩
        rw [Store.frame?_define, if_neg here, found]
    cases corresponds.agree paired with
    | alike found found' bound parents =>
        obtain ⟨changed, foundChanged, sameParent, same⟩ := keeps found
        apply FramesAgree.alike foundChanged found'
        · intro other isName
          rw [same other isName]
          exact bound other isName
        · rw [sameParent]
          exact parents
    | passed found unbound child older above covers =>
        obtain ⟨changed, foundChanged, sameParent, same⟩ := keeps found
        refine .passed foundChanged ?_ (sameParent.trans child) older above covers
        intro other isName
        rw [same other isName]
        exact unbound other isName
  single := corresponds.single
  allowed := corresponds.allowed
  together := by
    intro made isMade
    rw [Store.nextFrame_define] at isMade
    obtain ⟨hasParent, paired⟩ := corresponds.together made isMade
    exact ⟨hasParent.define inner name value, paired⟩

/-- Forms have matching values, although one run binds each value before the next form. -/
theorem agree_bindEach
    {runs : TwoRuns}
    {pairing : Pairing}
    {evaluate : Evaluator}
    (faithful : runs.IsFaithful evaluate)
    {inner frame : FrameId}
    {scope : Scope}
    (paired : pairing inner frame scope)
    {bindings : List (String × Value)}
    (hidden :
      ∀ right scope', runs.allowed inner right scope' →
        ∀ binding ∈ bindings, ¬ scope'.names binding.1)
    (noDefinitions : ∀ binding ∈ bindings, binding.2.definedNames = [])
    (alike :
      ∀ binding ∈ bindings,
        binding.2.Alike runs.toTranslation pairing scope.names binding.2) :
    runs.Agree pairing (fun wider => List.Forall₂ (Matches runs.toTranslation wider))
      (SpecialForm.bindEach evaluate inner bindings)
      ((bindings.map Prod.snd).mapM (evaluate frame)) := by
  show runs.simulation.holds pairing (fun wider => List.Forall₂ (Matches runs.toTranslation wider))
    _ _
  apply Judgement.holds_mapM
  · exact fun widens same => Value.Alike.mono same widens
  · refine List.forall₂_map_right_iff.2 (List.forall₂_same.2 fun binding member wider widens => ?_)
    rw [← bind_pure (evaluate frame binding.2)]
    apply Agree.bind
    · exact faithful.forms paired widens (Or.inr (noDefinitions binding member))
        (alike binding member)
    · intro widest value value' _ holds first second corresponds
      rw [Action.outcome_bind, Action.outcome_define]
      dsimp only
      rw [Action.outcome_pure, Action.outcome_pure]
      refine .ended le_rfl (corresponds.define_left ?_ value) (.result holds)
      intro right scope' pairedThen
      exact hidden right scope' (corresponds.allowed _ _ _ pairedThen) binding member

end TwoRuns

section

variable
  {store : Store}
  {frame : FrameId}
  {bound : List String}

/-- The runs from the opening of the inner frame and from the making of the function. -/
def TwoRuns.bindingRun (store : Store) (frame : FrameId) (bound : List String) : TwoRuns where
  toTranslation := .shift store.functions 1
  left := store.addFrame ⟨[], some frame⟩
  right := store.addFunction
  allowed := fun left _ scope => left = store.nextFrame → ∀ name ∈ bound, ¬ scope.names name
  function_made := shiftFrom_start_add store.functions 1
  allowed_made := by
    intro made _ _ _ _ same
    rw [Store.nextFrame_addFrame, Nat.add_assoc] at same
    exact absurd same (Nat.ne_of_gt (Nat.lt_add_of_pos_right (by omega)))

/-- All frames of the store stand for themselves, and the inner frame for the one that it is in. -/
def Pairing.passing (store : Store) (frame : FrameId) (bound : List String) : Pairing :=
  (Pairing.diagonal store).add store.nextFrame frame ⟨fun name => name ∉ bound, False⟩

theorem Pairing.passing_covers (store : Store) (frame : FrameId) (bound : List String) :
    (passing store frame bound).CoversFrames store :=
  fun old made => Or.inl (diagonal_covers store old made)

theorem TwoRuns.bindingRun_fixes (store : Store) (frame : FrameId) (bound : List String) :
    (bindingRun store frame bound).Fixes store :=
  Translation.shift_fixes store 1

theorem TwoRuns.corresponds_bindingRun
    (holds : Invariant.within.Holds store)
    (made : frame < store.nextFrame)
    (bound : List String) :
    (bindingRun store frame bound).Corresponds (.passing store frame bound)
      (store.addFrame ⟨[], some frame⟩) store.addFunction where
  inStep := ⟨0, 0, "", .refl _, .refl _⟩
  agree := by
    rintro left right scope (⟨old, rfl, rfl⟩ | ⟨rfl, rfl, rfl⟩)
    · have keeps : store.Keeps store.addFunction := Store.keeps_of_frames_eq rfl
      exact FramesAgree.self (bindingRun_fixes store frame bound)
        (Pairing.passing_covers store frame bound) holds (Store.keeps_addFrame store _) keeps old
    · apply FramesAgree.passed
      · rw [Store.frame?_addFrame, if_pos rfl]
      · exact fun _ _ => rfl
      · rfl
      · exact made
      · exact Pairing.passing_covers store _ bound _ made
      · exact fun _ _ => trivial
  single := by
    rintro left right scope left' right' scope' (⟨old, rfl, rfl⟩ | ⟨rfl, rfl, rfl⟩) ⟨⟩
  allowed := by
    rintro left right scope (⟨old, rfl, rfl⟩ | ⟨rfl, rfl, rfl⟩)
    · exact fun same => absurd same (Nat.ne_of_lt old)
    · exact fun _ name isBound noName => noName isBound
  together := fun _ isMade => absurd isMade (Nat.not_lt.2 (Nat.le_add_right _ _))

end

/-! ## The body -/

namespace TwoRuns

/-- The runs from later stores on. -/
def restart
    (runs : TwoRuns)
    (first second : Store)
    (function_made : ∀ made, runs.function (first.functions + made) = second.functions + made) :
    TwoRuns where
  toTranslation := runs.toTranslation
  left := first
  right := second
  allowed := fun _ _ _ => True
  function_made := function_made
  allowed_made := fun _ _ _ _ _ => trivial

/-- A frame of the first run that was passed over stands for the next frame of the second run. -/
theorem Corresponds.pairWithNext
    {runs : TwoRuns}
    {pairing : Pairing}
    {first second : Store}
    (corresponds : runs.Corresponds pairing first second)
    {inner frame : FrameId}
    {content : Frame}
    (found : first.frame? inner = some content)
    (child : content.parent = some frame)
    (older : frame < inner)
    (outer : pairing frame frame Scope.readOnly)
    {scope : Scope}
    (passed : pairing inner frame scope)
    {bindings : Bindings}
    (bound :
      ∀ name,
        Option.Rel (Matches runs.toTranslation pairing)
          (content.bindings.get? name) (bindings.get? (runs.name name))) :
    (runs.restart first (second.addFrame ⟨bindings, some frame⟩)
          corresponds.function_made).Corresponds
      (pairing.add inner second.nextFrame Scope.readOnly)
      first (second.addFrame ⟨bindings, some frame⟩) where
  inStep := ⟨0, 0, "", .refl _, .refl _⟩
  agree := by
    have widens := pairing.le_add inner second.nextFrame Scope.readOnly
    rintro left right scope' (old | ⟨rfl, rfl, rfl⟩)
    · exact (corresponds.agree old).mono widens (fun _ _ kept => kept) (Store.keeps_addFrame _ _)
    · apply FramesAgree.alike found
      · rw [Store.frame?_addFrame, if_pos rfl]
      · intro name _
        exact optionRel_imp (bound name) fun _ _ same => same.mono widens
      · rw [child]
        exact .some
          ⟨older, (corresponds.made outer).2, Scope.readOnly, Or.inl outer, fun _ _ => trivial⟩
  single := by
    rintro left right scope' left' right' scope'' (old | ⟨rfl, rfl, rfl⟩) writable
      (old' | ⟨rfl, rfl, rfl⟩)
    · exact corresponds.single old writable old'
    · have newer := (corresponds.made old).2
      constructor
      · -- The inner frame and its parent stood for one frame, so nothing is bound in it.
        rintro rfl
        have alone := (corresponds.single old writable passed).1 rfl
        have same := (corresponds.single old writable outer).2 alone
        exact absurd same (Nat.ne_of_lt older)
      · exact fun same => absurd same (Nat.ne_of_gt newer)
    · cases writable
    · cases writable
  allowed := fun _ _ _ _ => trivial
  together := fun _ isMade => absurd isMade (Nat.not_lt.2 (Nat.le_add_right _ _))

end TwoRuns

/-! ## The outcomes of the two forms -/

theorem Value.length_bindingItems (bindings : List (String × Value)) :
    (bindingItems bindings).length = 2 * bindings.length := by
  induction bindings with
  | nil => rfl
  | cons binding bindings ih =>
      rw [bindingItems, List.flatMap_cons, List.length_append, ← bindingItems, ih]
      simp only [List.length_cons, List.length_nil]
      omega

theorem outcome_letInForm
    (evaluate : Evaluator)
    (frame : FrameId)
    (bindings : List (String × Value))
    (body : Value)
    (store : Store) :
    (Eval.evalForm evaluate frame (Value.letInForm bindings body)).outcome store =
      (SpecialForm.bindEach evaluate store.nextFrame bindings >>= fun _ =>
          evaluate store.nextFrame body).outcome
        (store.addFrame ⟨[], some frame⟩) := by
  have unfolded :
      Eval.evalForm evaluate frame (Value.letInForm bindings body) =
        SpecialForm.evalLetIn evaluate frame [.list (Value.bindingItems bindings), body] := rfl
  have inPairs : (Value.bindingItems bindings).length % 2 = 0 := by
    rw [Value.length_bindingItems, Nat.mul_mod_right]
  rw [unfolded, SpecialForm.evalLetIn]
  simp only [Value.items?]
  rw [if_pos inPairs, Action.outcome_bind, Action.outcome_openFrame]
  dsimp only
  rw [SpecialForm.evalBindings_bindingItems, bind_assoc]
  simp only [pure_bind]

/-- The function of names without a mark takes as many arguments as there are names. -/
theorem outcome_functionForm
    (evaluate : Evaluator)
    (frame : FrameId)
    {bindings : List (String × Value)}
    (noMark : ∀ binding ∈ bindings, binding.1 ≠ Parameters.restMark)
    (body : Value)
    (store : Store) :
    (Eval.evalForm evaluate frame (Value.functionForm bindings body)).outcome store =
      some
        (.ok (.closure store.functions ⟨bindings.map Prod.fst, none⟩ body (some frame)),
          store.addFunction) := by
  have unmarked : Parameters.restMark ∉ bindings.map Prod.fst := by
    intro member
    obtain ⟨binding, isBinding, isMark⟩ := List.mem_map.1 member
    exact noMark binding isBinding isMark
  have symbols :
      bindings.map (fun binding => Value.symbol binding.1) =
        (bindings.map Prod.fst).map Value.symbol := by
    rw [List.map_map]
    rfl
  have denoted :
      Parameters.ofValue SpecialForm.function.name
          (.list (bindings.map fun binding => .symbol binding.1)) =
        .ok ⟨bindings.map Prod.fst, none⟩ :=
    Parameters.ofValue_eq_ok_iff.2 ⟨_, congrArg some symbols, .fixed unmarked⟩
  show (Eval.evalForm evaluate frame (Value.closureForm (.list _) body)).outcome store = _
  rw [outcome_closureForm, denoted]

theorem outcome_immediateCallForm
    (evaluate : Evaluator)
    {frame : FrameId}
    {bindings : List (String × Value)}
    {body : Value}
    {store between : Store}
    {function : Value}
    (made :
      (evaluate frame (Value.functionForm bindings body)).outcome store =
        some (.ok function, between)) :
    (Eval.evalForm evaluate frame (Value.immediateCallForm bindings body)).outcome store =
      ((bindings.map Prod.snd).mapM (evaluate frame) >>= Call.apply evaluate function).outcome
        between := by
  have unfolded :
      Eval.evalForm evaluate frame (Value.immediateCallForm bindings body) =
        evaluate frame (Value.functionForm bindings body) >>= fun function =>
          (bindings.map Prod.snd).mapM (evaluate frame) >>= fun arguments =>
            Call.apply evaluate function arguments := rfl
  rw [unfolded, Action.outcome_bind, made]

theorem outcome_apply_closure
    (evaluate : Evaluator)
    (identity : Nat)
    {names : List String}
    {values : List Value}
    (sameLength : values.length = names.length)
    (body : Value)
    (home : FrameId)
    (store : Store) :
    (Call.apply evaluate (.closure identity ⟨names, none⟩ body (some home)) values).outcome
        store =
      (evaluate store.nextFrame body).outcome
        (store.addFrame ⟨Bindings.ofPairs (names.zip values), some home⟩) := by
  have admits : (Parameters.mk names none).Admits values.length := sameLength
  have bound : (Parameters.mk names none).bind values = names.zip values := List.append_nil _
  rw [Call.outcome_apply_of_admits admits, bound]

/-! ## Both forms together -/

section

variable
  {depth : Nat}
  {store : Store}
  {frame : FrameId}

/-- After the forms, the body shows the same in the inner frame and in the frame of the call. -/
theorem shown_body_eq
    (made : frame < store.nextFrame)
    {names : List String}
    {body : Value}
    (bodyWithin : body.Within store)
    (noDefinition : body.definedNames = [])
    {pairing : Pairing}
    (widens : Pairing.passing store frame names ≤ pairing)
    {first second : Store}
    (corresponds : (TwoRuns.bindingRun store frame names).Corresponds pairing first second)
    {values values' : List Value}
    (same :
      List.Forall₂ (Matches (TwoRuns.bindingRun store frame names).toTranslation pairing)
        values values')
    {content : Frame}
    (found : first.frame? store.nextFrame = some content)
    (child : content.parent = some frame)
    (bound : ∀ name, content.bindings.get? name = (names.zip values).reverse.lookup name) :
    (eval depth second.nextFrame body).shown
        (second.addFrame ⟨Bindings.ofPairs (names.zip values'), some frame⟩) =
      (eval depth store.nextFrame body).shown first := by
  have fixes := TwoRuns.bindingRun_fixes store frame names
  have kept : names.map (TwoRuns.bindingRun store frame names).name = names := List.map_id names
  have zipped :=
    Parameters.forall₂_zip (TwoRuns.bindingRun store frame names).toTranslation names same
  rw [kept] at zipped
  have paired :=
    corresponds.pairWithNext found child made (widens _ _ _ (Or.inl ⟨made, rfl, rfl⟩))
      (widens _ _ _ (Or.inr ⟨rfl, rfl, rfl⟩))
      (fun name => by
        rw [bound, ← Bindings.get?_ofPairs]
        exact Bindings.optionRel_get?_ofPairs zipped name)
  have covers : (pairing.add store.nextFrame second.nextFrame Scope.readOnly).CoversFrames store :=
    fun old oldMade => Or.inl (widens _ _ _ (Or.inl ⟨oldMade, rfl, rfl⟩))
  have bodyAlike :=
    Value.alike_self fixes covers bodyWithin fun _ noName => absurd trivial noName
  have faithful :=
    TwoRuns.isFaithful_eval
      ((TwoRuns.bindingRun store frame names).restart first
        (second.addFrame ⟨Bindings.ofPairs (names.zip values'), some frame⟩)
        corresponds.function_made)
      depth
  have agree :=
    faithful _ _ _ Scope.readOnly body body (Or.inr ⟨rfl, rfl, rfl⟩) (Or.inr noDefinition)
      bodyAlike _ _ paired
  exact agree.shown_eq (corresponds.output_eq rfl) fixes

/-- A form whose symbols are not bound by the local definition is like itself in both frames. -/
theorem alike_passing
    {names : List String}
    {form : Value}
    (within : form.Within store)
    (omitted : ∀ name ∈ names, form.omits name = true) :
    form.Alike (TwoRuns.bindingRun store frame names).toTranslation
      (.passing store frame names) (fun name => name ∉ names) form := by
  apply Value.alike_self (TwoRuns.bindingRun_fixes store frame names)
    (Pairing.passing_covers store frame names) within
  intro name noName
  exact omitted name (not_not.1 noName)

theorem agree_forms
    (depth : Nat)
    (holds : Invariant.within.Holds store)
    (made : frame < store.nextFrame)
    {bindings : List (String × Value)}
    (formsWithin : ∀ binding ∈ bindings, binding.2.Within store)
    (omitted : ∀ binding ∈ bindings, ∀ other ∈ bindings, other.2.omits binding.1 = true)
    (noDefinitions : ∀ binding ∈ bindings, binding.2.definedNames = []) :
    (TwoRuns.bindingRun store frame (bindings.map Prod.fst)).OutcomesAgree
      (.passing store frame (bindings.map Prod.fst))
      (fun wider =>
        List.Forall₂
          (Matches (TwoRuns.bindingRun store frame (bindings.map Prod.fst)).toTranslation wider))
      ((SpecialForm.bindEach (eval depth) store.nextFrame bindings).outcome
        (store.addFrame ⟨[], some frame⟩))
      (((bindings.map Prod.snd).mapM (eval depth frame)).outcome store.addFunction) := by
  apply TwoRuns.agree_bindEach (TwoRuns.isFaithful_eval _ depth) (Or.inr ⟨rfl, rfl, rfl⟩) ?_
    noDefinitions
  · intro binding member
    apply alike_passing (formsWithin binding member)
    intro name isName
    obtain ⟨other, isOther, rfl⟩ := List.mem_map.1 isName
    exact omitted other isOther binding member
  · exact TwoRuns.corresponds_bindingRun holds made _
  · intro right scope allowed binding member
    exact allowed rfl binding.1 (List.mem_map_of_mem member)

/-- Forms followed by a body show the same, whether the values are bound at once or at last. -/
theorem shown_forms_eq
    (holds : Invariant.within.Holds store)
    (made : frame < store.nextFrame)
    {bindings : List (String × Value)}
    (formsWithin : ∀ binding ∈ bindings, binding.2.Within store)
    (omitted : ∀ binding ∈ bindings, ∀ other ∈ bindings, other.2.omits binding.1 = true)
    (noDefinitions : ∀ binding ∈ bindings, binding.2.definedNames = [])
    {body : Value}
    (bodyWithin : body.Within store)
    (noDefinition : body.definedNames = []) :
    ((bindings.map Prod.snd).mapM (eval depth frame) >>=
          Call.apply (eval depth)
            (.closure store.functions ⟨bindings.map Prod.fst, none⟩ body (some frame))).shown
        store.addFunction =
      (SpecialForm.bindEach (eval depth) store.nextFrame bindings >>= fun _ =>
          eval depth store.nextFrame body).shown
        (store.addFrame ⟨[], some frame⟩) := by
  have agree := agree_forms depth holds made formsWithin omitted noDefinitions
  rw [Action.shown, Action.shown, Action.outcome_bind, Action.outcome_bind]
  generalize forms : (SpecialForm.bindEach _ _ _).outcome _ = outcome at agree ⊢
  generalize Action.outcome ((bindings.map Prod.snd).mapM (eval depth frame)) _ =
    outcome' at agree ⊢
  cases agree with
  | tooDeep => rfl
  | @ended wider first second _ _ widens corresponds resultsAgree =>
      cases resultsAgree with
      | fault fault =>
          have fixes := TwoRuns.bindingRun_fixes store frame (bindings.map Prod.fst)
          have sameOutput : first.output = second.output := corresponds.output_eq rfl
          simp [fixes.fault_eq, sameOutput]
      | @result values values' same =>
          obtain ⟨asMany, content, found, child, bound⟩ :=
            SpecialForm.frame?_of_bindEach (isConfined_eval depth) noDefinitions
              (by rw [Store.frame?_addFrame, if_pos rfl]) forms
          have sameLength : values'.length = (bindings.map Prod.fst).length := by
            rw [List.length_map, ← same.length_eq, asMany]
          dsimp only
          rw [outcome_apply_closure (eval depth) store.functions sameLength]
          apply shown_body_eq made bodyWithin noDefinition widens corresponds same found child
          intro name
          rw [bound, Bindings.get?_nil, Option.or_none]

end

/--
In every frame of a reachable store, the local definition of names and the immediate
call of a function with these names as parameters show the same: both are too deep to
a depth, or they write the same text and end with the same fault or with values of the
same text.  No name may be the mark of the rest parameter or occur in the forms of the
values, and neither these forms nor the body may define names in the frame in which
they are evaluated.
-/
theorem immediateCall_shown_eq_letIn
    (depth : Nat)
    {store : Store}
    (reachable : store.Reachable)
    {frame : FrameId}
    (made : frame < store.nextFrame)
    {bindings : List (String × Value)}
    (noMark : ∀ binding ∈ bindings, binding.1 ≠ Parameters.restMark)
    (formsWithin : ∀ binding ∈ bindings, binding.2.Within store)
    (omitted : ∀ binding ∈ bindings, ∀ other ∈ bindings, other.2.omits binding.1 = true)
    (noDefinitions : ∀ binding ∈ bindings, binding.2.definedNames = [])
    {body : Value}
    (bodyWithin : body.Within store)
    (noDefinition : body.definedNames = []) :
    (eval depth frame (Value.immediateCallForm bindings body)).shown store =
      (eval depth frame (Value.letInForm bindings body)).shown store := by
  match depth with
  | 0 => rfl
  | 1 =>
      -- Neither the function nor a form or the body can be evaluated.
      have tooDeep : (eval 1 frame (Value.letInForm bindings body)).outcome store = none := by
        rw [eval_succ, outcome_letInForm]
        cases bindings with
        | nil => rfl
        | cons binding bindings => rfl
      rw [Action.shown, Action.shown, tooDeep]
      rfl
  | depth + 2 =>
      have functionMade := outcome_functionForm (eval depth) frame noMark body store
      rw [Action.shown, Action.shown, eval_succ, eval_succ, outcome_letInForm,
        outcome_immediateCallForm (eval (depth + 1)) functionMade]
      exact shown_forms_eq reachable.holds made formsWithin omitted noDefinitions bodyWithin
        noDefinition

/-- Bindings of a function and of an argument for it. -/
def functionAndArgument : List (String × Value) :=
  [("twice", .list [.symbol "fn*", .vector [.symbol "z"],
      .list [.symbol "list", .symbol "z", .symbol "z"]]),
    ("item", .keyword "a")]

/-- The call of the function with the argument. -/
def callOfBoth : Value := .list [.symbol "twice", .symbol "item"]

theorem immediateCall_shown_eq_letIn_of_function :
    (eval 4 0 (Value.immediateCallForm functionAndArgument callOfBoth)).shown
          (Session.enter .empty) =
        some (.ok "(:a :a)", "") ∧
      (eval 4 0 (Value.letInForm functionAndArgument callOfBoth)).shown (Session.enter .empty) =
        some (.ok "(:a :a)", "") := by
  have inLet :
      (eval 4 0 (Value.letInForm functionAndArgument callOfBoth)).shown (Session.enter .empty) =
        some (.ok "(:a :a)", "") := by decide +kernel
  refine ⟨?_, inLet⟩
  rw [← inLet]
  apply immediateCall_shown_eq_letIn 4 Store.Reachable.empty.enter (by decide +kernel)
  · decide
  · intro binding member
    apply Value.within_of_no_function
    revert binding
    decide
  · decide
  · decide
  · exact Value.within_of_no_function _ (by decide)
  · decide

end MiniLisp
