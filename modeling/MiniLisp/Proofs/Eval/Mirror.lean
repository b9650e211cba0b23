import MiniLisp.Proofs.Eval.Renumbering

/-!
# Stores that stand in other stores

This module relates a store to a larger one in which all its frames stand under other
numbers (`Store.Mirrors`).  The larger store may hold other frames besides, and may have
made other functions.  Numbers increase alike in both, and what is made next in one gets
the numbers of what is made next in the other.

Two runs that start in such stores correspond (`TwoRuns.corresponds_mirrored`), and
wherever they end, the stores they leave are related by the same numbering
(`TwoRuns.Corresponds.still_mirrors`).  What happens elsewhere in the larger store only shifts
the numbers of what is made later (`Store.Mirrors.later`).
-/

namespace MiniLisp

/-- Increasing numbers for the functions and the frames of a store in another store. -/
structure Numbering where
  function : Nat → Nat
  frame : FrameId → FrameId
  function_strictMono : StrictMono function
  frame_strictMono : StrictMono frame

namespace Numbering

/-- The value with the numbers of the other store. -/
def value (numbering : Numbering) (value : Value) : Value :=
  value.renumber numbering.function numbering.frame

/-- Functions are numbered otherwise, and names stay. -/
def toTranslation (numbering : Numbering) : Translation where
  name := fun name => name
  function := numbering.function
  name_injective := fun _ _ same => same
  ofName?_name := fun _ => rfl
  name_restMark := rfl
  function_strictMono := numbering.function_strictMono

/-- The numbering, with a gap for what has been made in the other store. -/
def later (numbering : Numbering) (before after : Store) : Numbering where
  function := before.laterFunction after ∘ numbering.function
  frame := before.laterFrame after ∘ numbering.frame
  function_strictMono := (strictMono_shiftFrom _ _).comp numbering.function_strictMono
  frame_strictMono := (strictMono_shiftFrom _ _).comp numbering.frame_strictMono

end Numbering

/-- The content of a frame, and the content of the frame that it stands for. -/
structure Frame.IsNumbered (numbering : Numbering) (content other : Frame) : Prop where
  parent : other.parent = content.parent.map numbering.frame
  get? :
    ∀ name, other.bindings.get? name = (content.bindings.get? name).map numbering.value

/-- All frames of the store stand in another one, and both stores go on with the same numbers. -/
structure Store.Mirrors (numbering : Numbering) (inner outer : Store) : Prop where
  function_next :
    ∀ made, numbering.function (inner.functions + made) = outer.functions + made
  frame_next :
    ∀ made, numbering.frame (inner.nextFrame + made) = outer.nextFrame + made
  content :
    ∀ {frame content},
      inner.frame? frame = some content →
        ∃ other, outer.frame? (numbering.frame frame) = some other ∧
          content.IsNumbered numbering other

section

variable
  {numbering : Numbering}
  {inner outer : Store}

namespace Store.Mirrors

theorem function_lt
    (mirrors : inner.Mirrors numbering outer)
    {identity : Nat}
    (made : identity < inner.functions) :
    numbering.function identity < outer.functions := by
  have next := mirrors.function_next 0
  rw [Nat.add_zero, Nat.add_zero] at next
  exact next ▸ numbering.function_strictMono made

theorem frame_lt
    (mirrors : inner.Mirrors numbering outer)
    {frame : FrameId}
    (made : frame < inner.nextFrame) :
    numbering.frame frame < outer.nextFrame := by
  have next := mirrors.frame_next 0
  rw [Nat.add_zero, Nat.add_zero] at next
  exact next ▸ numbering.frame_strictMono made

end Store.Mirrors

/-! ## Runs in both stores -/

/-- The run in the inner store, and the run in the outer one. -/
def TwoRuns.mirrored (mirrors : inner.Mirrors numbering outer) : TwoRuns where
  toTranslation := numbering.toTranslation
  left := inner
  right := outer
  allowed := fun left right scope => right = numbering.frame left ∧ scope = Scope.shared
  function_made := mirrors.function_next
  allowed_made := by
    rintro made _ _ _ ⟨-, rfl⟩
    exact ⟨(mirrors.frame_next made).symm, rfl⟩

/-- The frames of a store, each paired with the frame that it stands for. -/
def Pairing.numbered (numbering : Numbering) (store : Store) : Pairing :=
  fun left right scope =>
    left < store.nextFrame ∧ right = numbering.frame left ∧ scope = Scope.shared

theorem Pairing.numbered_self
    (numbering : Numbering)
    {store : Store}
    {frame : FrameId}
    (made : frame < store.nextFrame) :
    numbered numbering store frame (numbering.frame frame) Scope.shared :=
  ⟨made, rfl, rfl⟩

/-- A value within the inner store is like the value with the numbers of the outer store. -/
theorem Numbering.alike_value
    (numbering : Numbering)
    {value : Value}
    (within : value.Within inner)
    {names : String → Prop}
    (allNames : ∀ name, names name) :
    value.Alike numbering.toTranslation (.numbered numbering inner) names
      (numbering.value value) := by
  have numbers := Value.within_iff_numbersIn.1 within
  exact Value.alike_renumber rfl (fun _ made => Pairing.numbered_self numbering made) allNames
    (numbers.imp (fun _ _ => trivial) fun _ made => made)

theorem Numbering.matches_value
    (numbering : Numbering)
    {value : Value}
    (within : value.Within inner) :
    value.Matches numbering.toTranslation (.numbered numbering inner) (numbering.value value) :=
  numbering.alike_value within fun _ => rfl

theorem TwoRuns.corresponds_mirrored
    (holds : Invariant.within.Holds inner)
    (mirrors : inner.Mirrors numbering outer) :
    (mirrored mirrors).Corresponds (.numbered numbering inner) inner outer where
  inStep := ⟨0, 0, "", .refl inner, .refl outer⟩
  agree := by
    rintro left _ _ ⟨made, rfl, rfl⟩
    obtain ⟨content, found⟩ := Store.exists_frame?_of_lt made
    obtain ⟨other, found', isNumbered⟩ := mirrors.content found
    apply FramesAgree.alike found found'
    · intro name _
      have same := isNumbered.get? name
      change Option.Rel _ _ (other.bindings.get? name)
      rw [same]
      cases bound : content.bindings.get? name with
      | none => exact .none
      | some value => exact .some (numbering.matches_value (holds.bound found bound))
    · rw [isNumbered.parent]
      cases child : content.parent with
      | none => exact .none
      | some parent =>
          have older := holds.parent found child
          exact .some
            ⟨older, numbering.frame_strictMono older, Scope.shared,
              Pairing.numbered_self numbering (Nat.lt_trans older made), fun _ _ => trivial⟩
  single := by
    rintro left _ _ left' _ _ ⟨-, rfl, rfl⟩ - ⟨-, rfl, rfl⟩
    exact numbering.frame_strictMono.injective.eq_iff.symm
  allowed := by
    rintro left _ _ ⟨-, rfl, rfl⟩
    exact ⟨rfl, rfl⟩
  together := fun _ isMade => absurd isMade (Nat.not_lt.2 (Nat.le_add_right _ _))

namespace TwoRuns.Corresponds

variable
  {mirrors : inner.Mirrors numbering outer}
  {wider : Pairing}
  {first second : Store}

/-- No frame is passed over in these runs, as each frame stands for one of its own. -/
theorem isNumbered_of_paired
    (corresponds : (mirrored mirrors).Corresponds wider first second)
    {frame right : FrameId}
    {scope : Scope}
    (paired : wider frame right scope)
    {content : Frame}
    (found : first.frame? frame = some content) :
    ∃ other, second.frame? (numbering.frame frame) = some other ∧
      content.IsNumbered numbering other := by
  obtain ⟨rfl, rfl⟩ := corresponds.allowed _ _ _ paired
  cases corresponds.agree paired with
  | @alike known other isFound found' bound parents =>
      cases found.symm.trans isFound
      refine ⟨other, found', ?_, ?_⟩
      · generalize content.parent = parent at parents
        generalize other.parent = parent' at parents ⊢
        cases parents with
        | none => rfl
        | some above =>
            obtain ⟨-, -, scope, pairedAbove, -⟩ := above
            exact congrArg some (corresponds.allowed _ _ _ pairedAbove).1
      · intro name
        have here := bound name trivial
        change Option.Rel _ _ (other.bindings.get? name) at here
        generalize content.bindings.get? name = result at here ⊢
        generalize other.bindings.get? name = result' at here ⊢
        cases here with
        | none => rfl
        | some same =>
            have graph := fun left right scope paired =>
              (corresponds.allowed left right scope paired).1
            exact congrArg some (Value.eq_renumber_of_alike rfl graph same)
  | passed _ _ _ older pairedAbove _ =>
      have same := (corresponds.allowed _ _ _ pairedAbove).1
      exact absurd same (Nat.ne_of_gt (numbering.frame_strictMono older))

/-- The stores that both runs leave are related by the numbering that related the first ones. -/
theorem still_mirrors
    (corresponds : (mirrored mirrors).Corresponds wider first second)
    (widens : Pairing.numbered numbering inner ≤ wider) :
    first.Mirrors numbering second where
  function_next := corresponds.function_made
  frame_next := by
    obtain ⟨functions, frames, text, advances, advances'⟩ := corresponds.inStep
    intro made
    rw [advances.frames, advances'.frames, Nat.add_assoc, Nat.add_assoc]
    exact mirrors.frame_next _
  content := by
    intro frame content found
    rcases Nat.lt_or_ge frame inner.nextFrame with old | isNew
    · exact corresponds.isNumbered_of_paired
        (widens _ _ _ (Pairing.numbered_self numbering old)) found
    · obtain ⟨made, rfl⟩ := Nat.exists_eq_add_of_le isNew
      obtain ⟨-, scope, paired⟩ :=
        corresponds.together made (Store.lt_nextFrame_of_frame? found)
      exact corresponds.isNumbered_of_paired paired found

end TwoRuns.Corresponds

/-! ## What happens elsewhere -/

/-- What has been made has the numbers that it had. -/
theorem Store.Mirrors.later_function
    (mirrors : inner.Mirrors numbering outer)
    (after : Store)
    {identity : Nat}
    (made : identity < inner.functions) :
    (numbering.later outer after).function identity = numbering.function identity :=
  shiftFrom_of_lt _ (mirrors.function_lt made)

theorem Store.Mirrors.later_frame
    (mirrors : inner.Mirrors numbering outer)
    (after : Store)
    {frame : FrameId}
    (made : frame < inner.nextFrame) :
    (numbering.later outer after).frame frame = numbering.frame frame :=
  shiftFrom_of_lt _ (mirrors.frame_lt made)

theorem Store.Mirrors.later_value
    (mirrors : inner.Mirrors numbering outer)
    (after : Store)
    {value : Value}
    (within : value.Within inner) :
    (numbering.later outer after).value value = numbering.value value := by
  refine Value.renumber_congr ((Value.within_iff_numbersIn.1 within).imp ?_ ?_)
  · exact fun _ made => mirrors.later_function after made
  · exact fun _ made => mirrors.later_frame after made

/-- The inner store still stands in the outer one after changes of other frames. -/
theorem Store.Mirrors.later
    (mirrors : inner.Mirrors numbering outer)
    (holds : Invariant.within.Holds inner)
    {after : Store}
    (precedes : outer.Precedes after)
    (kept :
      ∀ frame content,
        frame < inner.nextFrame → outer.frame? (numbering.frame frame) = some content →
          after.frame? (numbering.frame frame) = some content) :
    inner.Mirrors (numbering.later outer after) after where
  function_next := by
    intro made
    show shiftFrom _ _ (numbering.function _) = _
    rw [mirrors.function_next, shiftFrom_start_add, Nat.add_sub_cancel' precedes.functions]
  frame_next := by
    intro made
    show shiftFrom _ _ (numbering.frame _) = _
    rw [mirrors.frame_next, shiftFrom_start_add, Nat.add_sub_cancel' precedes.frames]
  content := by
    intro frame content found
    have made := Store.lt_nextFrame_of_frame? found
    obtain ⟨other, found', isNumbered⟩ := mirrors.content found
    refine ⟨other, ?_, ?_, ?_⟩
    · rw [mirrors.later_frame after made]
      exact kept frame other made found'
    · rw [isNumbered.parent]
      cases child : content.parent with
      | none => rfl
      | some parent =>
          have older := Nat.lt_trans (holds.parent found child) made
          exact congrArg some (mirrors.later_frame after older).symm
    · intro name
      rw [isNumbered.get?]
      cases bound : content.bindings.get? name with
      | none => rfl
      | some value =>
          exact congrArg some (mirrors.later_value after (holds.bound found bound)).symm

end

/-! ## Sessions that are entered in both stores -/

theorem Store.Mirrors.addRoot
    {numbering : Numbering}
    {inner outer : Store}
    (mirrors : inner.Mirrors numbering outer) :
    (inner.addFrame ⟨[], none⟩).Mirrors numbering (outer.addFrame ⟨[], none⟩) where
  function_next := mirrors.function_next
  frame_next := by
    intro made
    have next := mirrors.frame_next (1 + made)
    rw [nextFrame_addFrame, nextFrame_addFrame, Nat.add_assoc, Nat.add_assoc]
    exact next
  content := by
    intro frame content found
    rw [frame?_addFrame] at found
    split at found
    · next isNew =>
        obtain rfl := isNew
        cases found
        refine ⟨⟨[], none⟩, ?_, rfl, fun _ => rfl⟩
        have target : numbering.frame inner.nextFrame = outer.nextFrame := mirrors.frame_next 0
        rw [frame?_addFrame, if_pos target]
    · obtain ⟨other, found', isNumbered⟩ := mirrors.content found
      exact ⟨other, keeps_addFrame outer _ _ other found', isNumbered⟩

theorem Store.Mirrors.defineBuiltin
    {numbering : Numbering}
    {inner outer : Store}
    (mirrors : inner.Mirrors numbering outer)
    (target : FrameId)
    (builtin : Builtin) :
    (inner.defineBuiltin target builtin).Mirrors numbering
      (outer.defineBuiltin (numbering.frame target) builtin) where
  function_next := by
    intro made
    have next := mirrors.function_next (1 + made)
    rw [← Nat.add_assoc, ← Nat.add_assoc] at next
    exact next
  frame_next := by
    intro made
    show numbering.frame ((inner.define _ _ _).nextFrame + made) =
      (outer.define _ _ _).nextFrame + made
    rw [nextFrame_define, nextFrame_define]
    exact mirrors.frame_next made
  content := by
    intro frame content found
    have foundBefore :
        (inner.define target builtin.name (.native inner.functions builtin)).frame? frame =
          some content := found
    by_cases same : frame = target
    · obtain rfl := same
      rw [frame?_define, if_pos rfl] at foundBefore
      obtain ⟨old, foundOld, rfl⟩ := Option.map_eq_some_iff.1 foundBefore
      obtain ⟨other, found', isNumbered⟩ := mirrors.content foundOld
      refine ⟨_, frame?_define_self found' builtin.name (.native outer.functions builtin),
        isNumbered.parent, ?_⟩
      intro name
      show (other.bindings.define _ _).get? name = ((old.bindings.define _ _).get? name).map _
      rw [Bindings.get?_define, Bindings.get?_define]
      split
      · exact congrArg (fun number => some (Value.native number builtin))
          (mirrors.function_next 0).symm
      · exact isNumbered.get? name
    · rw [frame?_define, if_neg same] at foundBefore
      obtain ⟨other, found', isNumbered⟩ := mirrors.content foundBefore
      refine ⟨other, ?_, isNumbered⟩
      show (outer.define _ _ _).frame? _ = _
      rw [frame?_define, if_neg fun equal => same (numbering.frame_strictMono.injective equal),
        found']

theorem Store.Mirrors.defineBuiltins
    {numbering : Numbering}
    {inner outer : Store}
    (mirrors : inner.Mirrors numbering outer)
    (target : FrameId) :
    (inner.defineBuiltins target).Mirrors numbering
      (outer.defineBuiltins (numbering.frame target)) := by
  rw [defineBuiltins_eq_foldl, defineBuiltins_eq_foldl]
  induction Builtin.all generalizing inner outer with
  | nil => exact mirrors
  | cons builtin builtins ih => exact ih (mirrors.defineBuiltin target builtin)

/-- A session is entered in the same way in every store. -/
theorem Store.Mirrors.enter
    {numbering : Numbering}
    {inner outer : Store}
    (mirrors : inner.Mirrors numbering outer) :
    (Session.enter inner).Mirrors numbering (Session.enter outer) := by
  have target : numbering.frame inner.nextFrame = outer.nextFrame := mirrors.frame_next 0
  rw [Session.enter, Session.enter, ← target]
  exact mirrors.addRoot.defineBuiltins inner.nextFrame

end MiniLisp
