import MiniLisp.Proofs.Eval.Alike
import MiniLisp.Proofs.Eval.Frames

/-!
# Stores and actions of two runs that correspond

This module compares two runs step by step.  The runs start in two stores with a
pairing of their frames, and keep in step: at any time both have made equally many
functions and frames since they started, and have written the same text
(`TwoRuns.Corresponds`).

Paired frames give values that match for the names of their scope.  Either both
bind the same of these names and their parents are paired in turn, or the frame of
the first run binds none of them and its parent is paired instead
(`FramesAgree`).  The second case lets a run have a frame more than the other.
Names may be bound only in frames that are paired with each other alone.

Two actions agree if they end alike in all stores that correspond, with the same
fault or with results that are related, and leave stores that correspond again
(`TwoRuns.Agree`).  New frames extend the pairing.
-/

namespace MiniLisp

/-- The pairing with one pair of frames more. -/
def Pairing.add
    (pairing : Pairing)
    (left right : FrameId)
    (scope : Scope) :
    Pairing :=
  fun left' right' scope' =>
    pairing left' right' scope' ∨ (left' = left ∧ right' = right ∧ scope' = scope)

theorem Pairing.le_add
    (pairing : Pairing)
    (left right : FrameId)
    (scope : Scope) :
    pairing ≤ pairing.add left right scope :=
  fun _ _ _ paired => Or.inl paired

/-! ## Runs that keep in step -/

/-- What was made and written between two stores of one run. -/
structure Store.Advances
    (functions frames : Nat)
    (text : String)
    (before after : Store) :
    Prop where
  functions : after.functions = before.functions + functions
  frames : after.nextFrame = before.nextFrame + frames
  output : after.output = before.output ++ text

namespace Store.Advances

variable
  {functions frames : Nat}
  {text : String}
  {before after : Store}

theorem refl (store : Store) : store.Advances 0 0 "" store :=
  ⟨rfl, rfl, String.append_empty.symm⟩

theorem define
    (advances : Advances functions frames text before after)
    (frame : FrameId)
    (name : String)
    (value : Value) :
    Advances functions frames text before (after.define frame name value) :=
  ⟨advances.functions, by rw [nextFrame_define, advances.frames], advances.output⟩

theorem addFrame
    (advances : Advances functions frames text before after)
    (content : Frame) :
    Advances functions (frames + 1) text before (after.addFrame content) :=
  ⟨advances.functions, by rw [nextFrame_addFrame, advances.frames, Nat.add_assoc], advances.output⟩

theorem addFunction
    (advances : Advances functions frames text before after) :
    Advances (functions + 1) frames text before after.addFunction :=
  ⟨congrArg (· + 1) advances.functions, advances.frames, advances.output⟩

theorem write
    (advances : Advances functions frames text before after)
    (more : String) :
    Advances functions frames (text ++ more) before (after.write more) := by
  refine ⟨advances.functions, advances.frames, ?_⟩
  rw [← String.append_assoc, ← advances.output]
  rfl

end Store.Advances

theorem optionRel_imp
    {First Second : Type}
    {relation weaker : First → Second → Prop}
    {first : Option First}
    {second : Option Second}
    (related : Option.Rel relation first second)
    (implies : ∀ value other, relation value other → weaker value other) :
    Option.Rel weaker first second := by
  cases related with
  | some holds => exact .some (implies _ _ holds)
  | none => exact .none

/-- Where two runs start, how they are translated, and which frames may be paired at all. -/
structure TwoRuns extends Translation where
  left : Store
  right : Store
  allowed : Pairing
  function_made :
    ∀ made, function (left.functions + made) = right.functions + made
  allowed_made :
    ∀ made {above above' scope}, allowed above above' scope →
      allowed (left.nextFrame + made) (right.nextFrame + made) ⟨scope.names, True⟩

/-- The frames bind matching values to the names of the scope, or the first is passed over. -/
inductive FramesAgree
    (translation : Translation)
    (pairing : Pairing)
    (first second : Store)
    (left right : FrameId)
    (scope : Scope) :
    Prop where
  | alike
      {content content' : Frame}
      (found : first.frame? left = some content)
      (found' : second.frame? right = some content')
      (bound :
        ∀ name, scope.names name →
          Option.Rel (Value.Matches translation pairing)
            (content.bindings.get? name) (content'.bindings.get? (translation.name name)))
      (parents :
        Option.Rel
          (fun parent parent' =>
            parent < left ∧ parent' < right ∧
              ∃ wider, pairing parent parent' wider ∧ ∀ name, scope.names name → wider.names name)
          content.parent content'.parent)
  | passed
      {content : Frame}
      {parent : FrameId}
      {wider : Scope}
      (found : first.frame? left = some content)
      (unbound : ∀ name, scope.names name → content.bindings.get? name = none)
      (child : content.parent = some parent)
      (older : parent < left)
      (paired : pairing parent right wider)
      (covers : ∀ name, scope.names name → wider.names name)

theorem FramesAgree.mono
    {translation : Translation}
    {pairing wider : Pairing}
    {first second first' second' : Store}
    {left right : FrameId}
    {scope : Scope}
    (agree : FramesAgree translation pairing first second left right scope)
    (widens : pairing ≤ wider)
    (keepsFirst : first.Keeps first')
    (keepsSecond : second.Keeps second') :
    FramesAgree translation wider first' second' left right scope := by
  cases agree with
  | alike found found' bound parents =>
      apply FramesAgree.alike (keepsFirst left _ found) (keepsSecond right _ found')
      · intro name isName
        exact optionRel_imp (bound name isName) fun _ _ same => same.mono widens
      · apply optionRel_imp parents
        rintro parent parent' ⟨older, older', scope', paired, covers⟩
        exact ⟨older, older', scope', widens parent parent' scope' paired, covers⟩
  | passed found unbound child older paired covers =>
      exact .passed (keepsFirst left _ found) unbound child older (widens _ _ _ paired) covers

namespace TwoRuns

/-- The stores of two runs that have kept in step, with frames that agree as they are paired. -/
structure Corresponds
    (runs : TwoRuns)
    (pairing : Pairing)
    (first second : Store) :
    Prop where
  inStep :
    ∃ functions frames text,
      runs.left.Advances functions frames text first ∧
        runs.right.Advances functions frames text second
  agree :
    ∀ {left right scope},
      pairing left right scope →
        FramesAgree runs.toTranslation pairing first second left right scope
  single :
    ∀ {left right scope left' right' scope'},
      pairing left right scope → scope.writable → pairing left' right' scope' →
        (left' = left ↔ right' = right)
  allowed : pairing ≤ runs.allowed
  /-- What both runs have opened since they started is paired one by one, below other frames. -/
  together :
    ∀ made, runs.left.nextFrame + made < first.nextFrame →
      first.HasParent (runs.left.nextFrame + made) ∧
        ∃ scope, pairing (runs.left.nextFrame + made) (runs.right.nextFrame + made) scope

namespace Corresponds

variable
  {runs : TwoRuns}
  {pairing : Pairing}
  {first second : Store}
  {left right : FrameId}
  {scope : Scope}

/-- Equally many functions were made, so the next ones correspond. -/
theorem function_next (corresponds : runs.Corresponds pairing first second) :
    runs.function first.functions = second.functions := by
  obtain ⟨functions, frames, text, advances, advances'⟩ := corresponds.inStep
  rw [advances.functions, advances'.functions, runs.function_made]

/-- Where the runs start with the same text, they have written the same text. -/
theorem output_eq
    (corresponds : runs.Corresponds pairing first second)
    (start : runs.left.output = runs.right.output) :
    first.output = second.output := by
  obtain ⟨functions, frames, text, advances, advances'⟩ := corresponds.inStep
  rw [advances.output, advances'.output, start]

theorem function_made
    (corresponds : runs.Corresponds pairing first second)
    (made : Nat) :
    runs.function (first.functions + made) = second.functions + made := by
  obtain ⟨functions, frames, text, advances, advances'⟩ := corresponds.inStep
  rw [advances.functions, advances'.functions, Nat.add_assoc, Nat.add_assoc, runs.function_made]

theorem allowed_next
    (corresponds : runs.Corresponds pairing first second)
    (paired : pairing left right scope) :
    runs.allowed first.nextFrame second.nextFrame ⟨scope.names, True⟩ := by
  obtain ⟨functions, frames, text, advances, advances'⟩ := corresponds.inStep
  rw [advances.frames, advances'.frames]
  exact runs.allowed_made frames (corresponds.allowed _ _ _ paired)

/-- Frames that are paired have been made. -/
theorem made
    (corresponds : runs.Corresponds pairing first second)
    (paired : pairing left right scope) :
    left < first.nextFrame ∧ right < second.nextFrame := by
  induction left using Nat.strong_induction_on generalizing scope with
  | h left ih =>
      cases corresponds.agree paired with
      | alike found found' bound parents =>
          exact ⟨Store.lt_nextFrame_of_frame? found, Store.lt_nextFrame_of_frame? found'⟩
      | passed found unbound child older wider covers =>
          exact ⟨Store.lt_nextFrame_of_frame? found, (ih _ older wider).2⟩

/-- Paired frames give values that match for the names of their scope. -/
theorem lookup?
    (corresponds : runs.Corresponds pairing first second)
    (paired : pairing left right scope)
    {name : String}
    (isName : scope.names name) :
    Option.Rel (Value.Matches runs.toTranslation pairing)
      (first.lookup? left name) (second.lookup? right (runs.name name)) := by
  -- The frame of the first run comes nearer to its root whichever way the frames agree.
  induction left using Nat.strong_induction_on generalizing right scope with
  | h left ih =>
      cases corresponds.agree paired with
      | @alike content content' found found' bound parents =>
          have here := bound name isName
          generalize known : content.bindings.get? name = result at here
          generalize known' : content'.bindings.get? (runs.name name) = result' at here
          cases here with
          | some same =>
              rw [Store.lookup?_of_bound found known, Store.lookup?_of_bound found' known']
              exact .some same
          | none =>
              generalize child : content.parent = parent at parents
              generalize child' : content'.parent = parent' at parents
              cases parents with
              | none =>
                  rw [Store.lookup?_of_root found known child,
                    Store.lookup?_of_root found' known' child']
                  exact .none
              | some above =>
                  obtain ⟨older, older', wider, pairedAbove, covers⟩ := above
                  rw [Store.lookup?_of_child found known child older,
                    Store.lookup?_of_child found' known' child' older']
                  exact ih _ older pairedAbove (covers name isName)
      | passed found unbound child older pairedAbove covers =>
          rw [Store.lookup?_of_child found (unbound name isName) child older]
          exact ih _ older pairedAbove (covers name isName)

/-- Where no frame changes, the stores keep corresponding. -/
theorem of_keeps
    (corresponds : runs.Corresponds pairing first second)
    {first' second' : Store}
    (keepsFirst : first.Keeps first')
    (keepsSecond : second.Keeps second')
    (noFrame : first'.nextFrame = first.nextFrame)
    (inStep :
      ∃ functions frames text,
        runs.left.Advances functions frames text first' ∧
          runs.right.Advances functions frames text second') :
    runs.Corresponds pairing first' second' where
  inStep := inStep
  agree := fun paired =>
    (corresponds.agree paired).mono le_rfl keepsFirst keepsSecond
  single := corresponds.single
  allowed := corresponds.allowed
  together := by
    intro made isMade
    rw [noFrame] at isMade
    obtain ⟨hasParent, paired⟩ := corresponds.together made isMade
    exact ⟨hasParent.of_keeps keepsFirst, paired⟩

theorem addFunction (corresponds : runs.Corresponds pairing first second) :
    runs.Corresponds pairing first.addFunction second.addFunction := by
  obtain ⟨functions, frames, text, advances, advances'⟩ := corresponds.inStep
  exact corresponds.of_keeps (Store.keeps_of_frames_eq rfl) (Store.keeps_of_frames_eq rfl) rfl
    ⟨_, _, _, advances.addFunction, advances'.addFunction⟩

theorem write
    (corresponds : runs.Corresponds pairing first second)
    (text : String) :
    runs.Corresponds pairing (first.write text) (second.write text) := by
  obtain ⟨functions, frames, text', advances, advances'⟩ := corresponds.inStep
  exact corresponds.of_keeps (Store.keeps_of_frames_eq rfl) (Store.keeps_of_frames_eq rfl) rfl
    ⟨_, _, _, advances.write text, advances'.write text⟩

/-- The next frames of both runs are paired with each other alone. -/
theorem addFrame
    (corresponds : runs.Corresponds pairing first second)
    (paired : pairing left right scope)
    {bindings bindings' : Bindings}
    (bound :
      ∀ name,
        Option.Rel (Value.Matches runs.toTranslation pairing)
          (bindings.get? name) (bindings'.get? (runs.name name))) :
    runs.Corresponds (pairing.add first.nextFrame second.nextFrame ⟨scope.names, True⟩)
      (first.addFrame ⟨bindings, some left⟩) (second.addFrame ⟨bindings', some right⟩) where
  inStep := by
    obtain ⟨functions, frames, text, advances, advances'⟩ := corresponds.inStep
    exact ⟨_, _, _, advances.addFrame _, advances'.addFrame _⟩
  agree := by
    have widens := pairing.le_add first.nextFrame second.nextFrame ⟨scope.names, True⟩
    rintro left' right' scope' (old | ⟨rfl, rfl, rfl⟩)
    · exact (corresponds.agree old).mono widens (Store.keeps_addFrame _ _)
        (Store.keeps_addFrame _ _)
    · obtain ⟨made, made'⟩ := corresponds.made paired
      apply FramesAgree.alike
      · rw [Store.frame?_addFrame, if_pos rfl]
      · rw [Store.frame?_addFrame, if_pos rfl]
      · intro name _
        exact optionRel_imp (bound name) fun _ _ same => same.mono widens
      · exact .some ⟨made, made', scope, Or.inl paired, fun _ isName => isName⟩
  single := by
    rintro left' right' scope' left'' right'' scope'' (old | ⟨rfl, rfl, rfl⟩) writable
      (old' | ⟨rfl, rfl, rfl⟩)
    · exact corresponds.single old writable old'
    · obtain ⟨made, made'⟩ := corresponds.made old
      exact ⟨fun same => absurd same (Nat.ne_of_gt made),
        fun same => absurd same (Nat.ne_of_gt made')⟩
    · obtain ⟨made, made'⟩ := corresponds.made old'
      exact ⟨fun same => absurd same (Nat.ne_of_lt made),
        fun same => absurd same (Nat.ne_of_lt made')⟩
    · exact ⟨fun _ => rfl, fun _ => rfl⟩
  allowed := by
    rintro left' right' scope' (old | ⟨rfl, rfl, rfl⟩)
    · exact corresponds.allowed _ _ _ old
    · exact corresponds.allowed_next paired
  together := by
    intro made isMade
    rw [Store.nextFrame_addFrame] at isMade
    rcases Nat.lt_succ_iff_lt_or_eq.1 isMade with old | isNew
    · obtain ⟨hasParent, scope', pairedOld⟩ := corresponds.together made old
      exact ⟨hasParent.of_keeps (Store.keeps_addFrame _ _), scope', Or.inl pairedOld⟩
    · obtain ⟨functions, frames, text, advances, advances'⟩ := corresponds.inStep
      have count : made = frames := Nat.add_left_cancel (isNew.trans advances.frames)
      rw [isNew, count, ← advances'.frames]
      exact ⟨.addFrame first bindings left, _, Or.inr ⟨rfl, rfl, rfl⟩⟩

/-- A definition in two frames that are paired with each other alone. -/
theorem define
    (corresponds : runs.Corresponds pairing first second)
    (paired : pairing left right scope)
    (writable : scope.writable)
    (name : String)
    {value value' : Value}
    (same : value.Matches runs.toTranslation pairing value') :
    runs.Corresponds pairing (first.define left name value)
      (second.define right (runs.name name) value') where
  inStep := by
    obtain ⟨functions, frames, text, advances, advances'⟩ := corresponds.inStep
    exact ⟨_, _, _, advances.define _ _ _, advances'.define _ _ _⟩
  agree := by
    intro left' right' scope' paired'
    have alone := corresponds.single paired writable paired'
    cases corresponds.agree paired' with
    | @alike content content' found found' bound parents =>
        by_cases here : left' = left
        · obtain rfl := here
          obtain rfl := alone.1 rfl
          refine .alike (Store.frame?_define_self found name value)
            (Store.frame?_define_self found' (runs.name name) value') ?_ parents
          intro other isName
          show Option.Rel _ ((content.bindings.define name value).get? other)
            ((content'.bindings.define (runs.name name) value').get? (runs.name other))
          rw [Bindings.get?_define, Bindings.get?_define]
          by_cases asked : other = name
          · rw [if_pos asked, if_pos (congrArg runs.name asked)]
            exact .some same
          · rw [if_neg asked, if_neg fun equal => asked (runs.name_injective equal)]
            exact bound other isName
        · refine .alike ?_ ?_ bound parents
          · rw [Store.frame?_define, if_neg here, found]
          · rw [Store.frame?_define, if_neg fun here' => here (alone.2 here'), found']
    | @passed content parent wider found unbound child older above covers =>
        -- The right frame is paired with the parent as well, so it is not the one that changes.
        have elsewhere : left' ≠ left := by
          intro here
          have parentToo := corresponds.single paired writable above
          exact Nat.ne_of_lt older ((parentToo.2 (alone.1 here)).trans here.symm)
        refine .passed ?_ unbound child older above covers
        rw [Store.frame?_define, if_neg elsewhere, found]
  single := corresponds.single
  allowed := corresponds.allowed
  together := by
    intro made isMade
    rw [Store.nextFrame_define] at isMade
    obtain ⟨hasParent, pairedThen⟩ := corresponds.together made isMade
    exact ⟨hasParent.define left name value, pairedThen⟩

end Corresponds

/-! ## Actions that agree -/

/-- Both evaluations are too deep, or they end alike in stores that correspond. -/
inductive OutcomesAgree
    {First Second : Type}
    (runs : TwoRuns)
    (pairing : Pairing)
    (related : Pairing → First → Second → Prop) :
    Option (Except Fault First × Store) → Option (Except Fault Second × Store) → Prop where
  | tooDeep : OutcomesAgree runs pairing related none none
  | ended
      {wider : Pairing}
      {first second : Store}
      {result : Except Fault First}
      {other : Except Fault Second}
      (widens : pairing ≤ wider)
      (corresponds : runs.Corresponds wider first second)
      (agree : ResultsAgree runs.toTranslation (related wider) result other) :
      OutcomesAgree runs pairing related (some (result, first)) (some (other, second))

/-- The actions end alike in all stores that correspond. -/
def Agree
    {First Second : Type}
    (runs : TwoRuns)
    (pairing : Pairing)
    (related : Pairing → First → Second → Prop)
    (action : Action First)
    (other : Action Second) :
    Prop :=
  ∀ first second,
    runs.Corresponds pairing first second →
      OutcomesAgree runs pairing related (action.outcome first) (other.outcome second)

namespace Agree

variable
  {First Second First' Second' : Type}
  {runs : TwoRuns}
  {pairing : Pairing}
  {related : Pairing → First → Second → Prop}

theorem tooDeep :
    runs.Agree pairing related Action.tooDeep Action.tooDeep :=
  fun _ _ _ => .tooDeep

theorem ofExcept
    {result : Except Fault First}
    {other : Except Fault Second}
    (agree : ResultsAgree runs.toTranslation (related pairing) result other) :
    runs.Agree pairing related (Action.ofExcept result) (Action.ofExcept other) := by
  intro first second corresponds
  rw [Action.outcome_ofExcept, Action.outcome_ofExcept]
  exact .ended le_rfl corresponds agree

theorem pure
    {result : First}
    {other : Second}
    (holds : related pairing result other) :
    runs.Agree pairing related (pure result) (pure other) :=
  ofExcept (.result holds)

theorem fail
    {fault other : Fault}
    (same : other = fault.rename runs.name) :
    runs.Agree pairing related (Action.fail fault) (Action.fail other) := by
  subst same
  exact ofExcept (.fault fault)

theorem mono
    {weaker : Pairing → First → Second → Prop}
    {action : Action First}
    {other : Action Second}
    (agree : runs.Agree pairing related action other)
    (implies : ∀ wider value value', related wider value value' → weaker wider value value') :
    runs.Agree pairing weaker action other := by
  intro first second corresponds
  have ends := agree first second corresponds
  generalize action.outcome first = outcome at ends ⊢
  generalize other.outcome second = outcome' at ends ⊢
  cases ends with
  | tooDeep => exact .tooDeep
  | ended widens after results => exact .ended widens after (results.mono (implies _))

theorem bind
    {late : Pairing → First' → Second' → Prop}
    {action : Action First}
    {other : Action Second}
    {next : First → Action First'}
    {next' : Second → Action Second'}
    (early : runs.Agree pairing related action other)
    (rest :
      ∀ wider value value',
        pairing ≤ wider → related wider value value' →
          runs.Agree wider late (next value) (next' value')) :
    runs.Agree pairing late (action >>= next) (other >>= next') := by
  intro first second corresponds
  rw [Action.outcome_bind, Action.outcome_bind]
  have ends := early first second corresponds
  generalize action.outcome first = outcome at ends
  generalize other.outcome second = outcome' at ends
  cases ends with
  | tooDeep => exact .tooDeep
  | ended widens between agree =>
      cases agree with
      | fault fault => exact .ended widens between (.fault fault)
      | result holds =>
          have restEnds := rest _ _ _ widens holds _ _ between
          dsimp only
          generalize (next _).outcome _ = outcome at restEnds ⊢
          generalize (next' _).outcome _ = outcome' at restEnds ⊢
          cases restEnds with
          | tooDeep => exact .tooDeep
          | ended widensMore after agree =>
              exact .ended (widens.trans widensMore) after agree

theorem map
    {late : Pairing → First' → Second' → Prop}
    {action : Action First}
    {other : Action Second}
    {change : First → First'}
    {change' : Second → Second'}
    (early : runs.Agree pairing related action other)
    (maps :
      ∀ wider value value',
        related wider value value' → late wider (change value) (change' value')) :
    runs.Agree pairing late (change <$> action) (change' <$> other) := by
  rw [map_eq_pure_bind, map_eq_pure_bind]
  exact bind early fun wider value value' _ holds => pure (maps wider value value' holds)

end Agree

end TwoRuns

end MiniLisp
