import MiniLisp.Proofs.Eval.SharedStore

/-!
# A session in a shared store

This module compares a session in a shared store with the same session in a store of its
own.  The store of its own stands in the shared one as the tree of the root of the
session (`SharedStore.Hosts`): its frames are those of the tree, and its functions are
those that were made in the tree.

A request of the session gives the same in both, and leaves stores of which the one
stands in the other again (`SharedStore.Hosts.perform`).  A request of another session
leaves the tree as it is (`SharedStore.Hosts.elsewhere`).
-/

namespace MiniLisp

open MiniLisp.Value (Matches)

/-! ## Requests in a store -/

namespace Request

variable
  {store : Store}
  {request : Request}

/-- A request changes no frame but the one that it is addressed to. -/
theorem changesOnly
    {outcome : Except Fault Reply}
    {after : Store}
    (ends : request.action.outcome store = some (outcome, after)) :
    store.ChangesOnly request.frame (fun _ => True) after := by
  cases request with
  | define frame name value =>
      rw [action, Action.outcome_map, Action.outcome_define] at ends
      cases ends
      exact .define trivial store frame value
  | child parent =>
      rw [action, Action.outcome_map, Action.outcome_openFrame] at ends
      cases ends
      exact (Store.keeps_addFrame store _).changesOnly parent _
  | eval depth frame form =>
      rw [action, Action.outcome_map] at ends
      obtain ⟨⟨result, left⟩, evaluated, given⟩ := Option.map_eq_some_iff.1 ends
      cases given
      exact (isConfined_eval depth frame form _ _ _ evaluated).mono fun _ _ => trivial
  | lookup frame name =>
      rw [action, Action.outcome_map] at ends
      obtain ⟨⟨result, left⟩, found, given⟩ := Option.map_eq_some_iff.1 ends
      cases given
      have keeps : store.Keeps left := Action.respects_lookup frame name store _ left found
      exact keeps.changesOnly frame _

/-- All that the reply names has been made in the store that a request leaves. -/
theorem maintains
    (made : request.frame < store.nextFrame)
    (within : ∀ value ∈ request.values, value.Within store) :
    Invariant.within.Maintains store
      (fun after reply =>
        (∀ value ∈ reply.values, value.Within after) ∧
          ∀ frame ∈ reply.frames, frame < after.nextFrame)
      request.action := by
  have given (after : Store) (value : Value) (good : value.Within after) :
      Invariant.within.Maintains after
        (fun after reply =>
          (∀ value ∈ reply.values, value.Within after) ∧
            ∀ frame ∈ reply.frames, frame < after.nextFrame)
        (pure (Reply.given value)) :=
    .pure ⟨List.forall_mem_singleton.2 good, List.forall_mem_nil _⟩
  cases request with
  | define frame name value =>
      rw [action, map_eq_pure_bind]
      apply Invariant.Maintains.bind
      · exact .define frame name (within value List.mem_cons_self)
      · exact fun _ _ _ _ => .pure ⟨List.forall_mem_nil _, List.forall_mem_nil _⟩
  | child parent =>
      rw [action, map_eq_pure_bind]
      apply Invariant.Maintains.bind
      · exact .openFrame made (by simp)
      · exact fun after frame _ frameMade =>
          .pure ⟨List.forall_mem_nil _, List.forall_mem_singleton.2 frameMade⟩
  | eval depth frame form =>
      rw [action, map_eq_pure_bind]
      apply Invariant.Maintains.bind
      · exact Invariant.maintains_eval .within depth store frame form made
          (within form List.mem_cons_self)
      · exact fun after value _ good => given after value good
  | lookup frame name =>
      rw [action, map_eq_pure_bind]
      apply Invariant.Maintains.bind
      · exact .lookup frame name
      · exact fun after value _ good => given after value good

end Request

/-- What a request that is performed in a store leaves. -/
theorem Store.perform_eq_some
    {store after : Store}
    {session : Session}
    {request : Request}
    {event : Event}
    (performed : store.perform session request = some (event, after)) :
    ∃ outcome,
      request.action.outcome store.forgetOutput = some (outcome, after) ∧
        event = ⟨session, request, outcome, after.output⟩ := by
  obtain ⟨⟨outcome, left⟩, ends, same⟩ := Option.map_eq_some_iff.1 performed
  cases same
  exact ⟨outcome, ends, rfl⟩

theorem Store.perform_changesOnly
    {store after : Store}
    {session : Session}
    {request : Request}
    {event : Event}
    (performed : store.perform session request = some (event, after)) :
    store.ChangesOnly request.frame (fun _ => True) after := by
  obtain ⟨outcome, ends, -⟩ := perform_eq_some performed
  have changes := Request.changesOnly ends
  exact ⟨changes.others, changes.own⟩

/-- The event names only what has been made, and so do all bindings after it. -/
theorem Store.perform_within
    {store after : Store}
    (holds : Invariant.within.Holds store)
    {session : Session}
    {request : Request}
    (made : request.frame < store.nextFrame)
    (within : ∀ value ∈ request.values, value.Within store)
    {event : Event}
    (performed : store.perform session request = some (event, after)) :
    store.Precedes after ∧ Invariant.within.Holds after ∧ event.IsWithin after := by
  obtain ⟨outcome, ends, rfl⟩ := perform_eq_some performed
  have forgets : store.Precedes store.forgetOutput := ⟨Nat.le_refl _, Nat.le_refl _⟩
  have madeThen : request.frame < store.forgetOutput.nextFrame := made
  have withinThen : ∀ value ∈ request.values, value.Within store.forgetOutput :=
    fun value member => (within value member).mono forgets
  obtain ⟨precedes, leaves, good⟩ :=
    Request.maintains madeThen withinThen (holds.of_frames_eq forgets rfl) _ _ ends
  refine ⟨forgets.trans precedes, leaves.holds, Nat.lt_of_lt_of_le made precedes.frames, ?_, ?_⟩
  · exact fun value member => (withinThen value member).mono precedes
  · exact good

/-! ## Requests in two stores -/

/-- Replies of two runs that give paired frames, or values that match. -/
inductive Reply.Alike (translation : Translation) (pairing : Pairing) : Reply → Reply → Prop
  | defined : Reply.Alike translation pairing .defined .defined
  | opened
      {left right : FrameId}
      {scope : Scope}
      (paired : pairing left right scope) :
      Reply.Alike translation pairing (.opened left) (.opened right)
  | given
      {value other : Value}
      (same : value.Matches translation pairing other) :
      Reply.Alike translation pairing (.given value) (.given other)

section

variable
  {numbering : Numbering}
  {inner outer : Store}

/-- A request in a store and the same request in a store where it stands have like replies. -/
theorem TwoRuns.agree_request
    (mirrors : inner.Mirrors numbering outer)
    {request : Request}
    (made : request.frame < inner.nextFrame)
    (within : ∀ value ∈ request.values, value.Within inner) :
    (mirrored mirrors).Agree (.numbered numbering inner) (Reply.Alike numbering.toTranslation)
      request.action (request.map numbering.value numbering.frame).action := by
  have paired := Pairing.numbered_self numbering made
  cases request with
  | define frame name value =>
      have same := numbering.matches_value (within value List.mem_cons_self)
      apply Agree.map (agree_define paired trivial name same)
      exact fun _ _ _ _ => .defined
  | child parent =>
      apply Agree.map (agree_openFrame paired fun _ => .none)
      exact fun _ _ _ pairedThen => .opened pairedThen
  | eval depth frame form =>
      have allNames : ∀ name, Scope.shared.names name := fun _ => trivial
      have alike := numbering.alike_value (within form List.mem_cons_self) allNames
      apply Agree.map (isFaithful_eval _ depth _ _ _ _ _ _ paired (Or.inl trivial) alike)
      exact fun _ _ _ same => .given same
  | lookup frame name =>
      apply Agree.map (agree_lookup paired trivial)
      exact fun _ _ _ same => .given same

theorem Reply.Alike.eq_map
    {pairing : Pairing}
    (graph : ∀ left right scope, pairing left right scope → right = numbering.frame left)
    {reply other : Reply}
    (alike : reply.Alike numbering.toTranslation pairing other) :
    other = reply.map numbering.value numbering.frame := by
  cases alike with
  | defined => rfl
  | opened paired => exact congrArg Reply.opened (graph _ _ _ paired)
  | given same => exact congrArg Reply.given (Value.eq_renumber_of_alike rfl graph same)

theorem Store.Mirrors.forgetOutput
    (mirrors : inner.Mirrors numbering outer) :
    inner.forgetOutput.Mirrors numbering outer.forgetOutput :=
  ⟨mirrors.function_next, mirrors.frame_next, mirrors.content⟩

/-- What both runs have made, with the stores in which they stand related as before. -/
structure Store.Mirrored
    (numbering : Numbering)
    (inner outer first second : Store) :
    Prop where
  mirrors : first.Mirrors numbering second
  inStep :
    ∃ functions frames,
      first.functions = inner.functions + functions ∧
        second.functions = outer.functions + functions ∧
          first.nextFrame = inner.nextFrame + frames ∧
            second.nextFrame = outer.nextFrame + frames
  hasParent :
    ∀ frame,
      inner.nextFrame ≤ frame → frame < first.nextFrame → frame ≠ 0 → first.HasParent frame

/-- A request in a store and the same request in a store where it stands give the same. -/
theorem Store.Mirrors.perform
    (mirrors : inner.Mirrors numbering outer)
    (holds : Invariant.within.Holds inner)
    (session : Session)
    {request : Request}
    (made : request.frame < inner.nextFrame)
    (within : ∀ value ∈ request.values, value.Within inner) :
    Option.Rel
      (fun ending other =>
        other.1 = ending.1.map numbering.value numbering.frame ∧
          Mirrored numbering inner outer ending.2 other.2)
      (inner.perform session request)
      (outer.perform session (request.map numbering.value numbering.frame)) := by
  have forgets : inner.Precedes inner.forgetOutput := ⟨Nat.le_refl _, Nat.le_refl _⟩
  have madeThen : request.frame < inner.forgetOutput.nextFrame := made
  have withinThen : ∀ value ∈ request.values, value.Within inner.forgetOutput :=
    fun value member => (within value member).mono forgets
  have ends :=
    TwoRuns.agree_request mirrors.forgetOutput madeThen withinThen _ _
      (TwoRuns.corresponds_mirrored (holds.of_frames_eq forgets rfl) mirrors.forgetOutput)
  unfold Store.perform
  generalize request.action.outcome inner.forgetOutput = outcome at ends ⊢
  generalize
    (request.map numbering.value numbering.frame).action.outcome outer.forgetOutput = outcome'
    at ends ⊢
  cases ends with
  | tooDeep => exact .none
  | @ended wider first second result other widens corresponds agree =>
      have graph := fun left right scope paired =>
        (corresponds.allowed left right scope paired).1
      refine .some ⟨?_, corresponds.still_mirrors widens, ?_, ?_⟩
      · have sameText := corresponds.output_eq rfl
        cases agree with
        | fault fault =>
            show Event.mk _ _ (.error (fault.rename id)) _ = _
            rw [fault.rename_id, ← sameText]
            rfl
        | result alike =>
            rw [alike.eq_map graph]
            dsimp only
            rw [← sameText]
            rfl
      · obtain ⟨functions, frames, text, advances, advances'⟩ := corresponds.inStep
        exact
          ⟨functions, frames, advances.functions, advances'.functions, advances.frames,
            advances'.frames⟩
      · intro frame isNew isMade _
        obtain ⟨count, rfl⟩ := Nat.exists_eq_add_of_le isNew
        exact (corresponds.together count isMade).1

end

/-! ## A session in a shared store -/

/-- Makers of functions that were there, or of those that were made since. -/
theorem getElem?_append_replicate_eq_some_iff
    {makers : List FrameId}
    {count : Nat}
    {maker root : FrameId}
    {identity : Nat} :
    (makers ++ List.replicate count maker)[identity]? = some root ↔
      makers[identity]? = some root ∨
        maker = root ∧ makers.length ≤ identity ∧ identity < makers.length + count := by
  rcases Nat.lt_or_ge identity makers.length with old | isNew
  · rw [List.getElem?_append_left old]
    exact ⟨Or.inl, fun made => made.resolve_right fun later => Nat.not_lt.2 later.2.1 old⟩
  · rw [List.getElem?_append_right isNew, List.getElem?_replicate,
      List.getElem?_eq_none isNew]
    constructor
    · intro made
      split at made
      · next below =>
          cases made
          exact Or.inr ⟨rfl, isNew, by omega⟩
      · cases made
    · rintro (⟨⟨⟩⟩ | ⟨rfl, -, below⟩)
      rw [if_pos (by omega)]

namespace SharedStore

/-- A store in which the session lives alone stands in the shared store as the tree of a root. -/
structure Hosts
    (shared : SharedStore)
    (root : FrameId)
    (numbering : Numbering)
    (alone : Store) :
    Prop where
  holds : Invariant.within.Holds alone
  mirrors : alone.Mirrors numbering shared.store
  root_eq : numbering.frame 0 = root
  single : ∀ frame, frame < alone.nextFrame → frame ≠ 0 → alone.HasParent frame
  frames :
    ∀ frame,
      shared.store.root? frame = some root ↔
        ∃ made, made < alone.nextFrame ∧ numbering.frame made = frame
  recorded : shared.makers.length = shared.store.functions
  functions :
    ∀ identity,
      shared.makers[identity]? = some root ↔
        ∃ made, made < alone.functions ∧ numbering.function made = identity

namespace Hosts

variable
  {shared : SharedStore}
  {root : FrameId}
  {numbering : Numbering}
  {alone : Store}

/-! ### Values of the tree -/

theorem owns_value
    (hosts : shared.Hosts root numbering alone)
    {value : Value}
    (within : value.Within alone) :
    shared.Owns root (numbering.value value) := by
  apply Value.numbersIn_renumber
  refine (Value.within_iff_numbersIn.1 within).imp ?_ ?_
  · exact fun identity made => (hosts.functions _).2 ⟨identity, made, rfl⟩
  · exact fun home made => (hosts.frames _).2 ⟨home, made, rfl⟩

/-- What the tree owns are the values within the store in which the session lives alone. -/
theorem exists_value
    (hosts : shared.Hosts root numbering alone)
    {value : Value}
    (owned : shared.Owns root value) :
    ∃ original : Value, original.Within alone ∧ numbering.value original = value := by
  refine
    ⟨value.renumber (Function.invFun numbering.function) (Function.invFun numbering.frame), ?_, ?_⟩
  · apply Value.within_iff_numbersIn.2
    apply Value.numbersIn_renumber
    refine owned.imp ?_ ?_
    · intro identity made
      obtain ⟨original, isMade, rfl⟩ := (hosts.functions identity).1 made
      rw [Function.leftInverse_invFun numbering.function_strictMono.injective original]
      exact isMade
    · intro home inTree
      obtain ⟨original, isMade, rfl⟩ := (hosts.frames home).1 inTree
      rw [Function.leftInverse_invFun numbering.frame_strictMono.injective original]
      exact isMade
  · apply Value.renumber_invFun
    refine owned.imp ?_ ?_
    · intro identity made
      obtain ⟨original, -, same⟩ := (hosts.functions identity).1 made
      exact ⟨original, same⟩
    · intro home inTree
      obtain ⟨original, -, same⟩ := (hosts.frames home).1 inTree
      exact ⟨original, same⟩

/-- A request that the session may make in the shared store is one that it may make alone. -/
theorem exists_request
    {session : Session}
    (hosts : shared.Hosts session.root numbering alone)
    {request : Request}
    (admits : shared.Admits session request) :
    ∃ original : Request,
      original.frame < alone.nextFrame ∧ (∀ value ∈ original.values, value.Within alone) ∧
        original.map numbering.value numbering.frame = request := by
  obtain ⟨frame, made, sameFrame⟩ := (hosts.frames _).1 admits.addressed
  cases request with
  | define other name value =>
      obtain ⟨original, within, rfl⟩ := hosts.exists_value (admits.owned value List.mem_cons_self)
      refine ⟨.define frame name original, made, List.forall_mem_singleton.2 within, ?_⟩
      exact congrArg (Request.define · name _) sameFrame
  | child parent =>
      exact ⟨.child frame, made, List.forall_mem_nil _, congrArg Request.child sameFrame⟩
  | eval depth other form =>
      obtain ⟨original, within, rfl⟩ := hosts.exists_value (admits.owned form List.mem_cons_self)
      refine ⟨.eval depth frame original, made, List.forall_mem_singleton.2 within, ?_⟩
      exact congrArg (Request.eval depth · _) sameFrame
  | lookup other name =>
      refine ⟨.lookup frame name, made, List.forall_mem_nil _, ?_⟩
      exact congrArg (Request.lookup · name) sameFrame

theorem admits
    {session : Session}
    (hosts : shared.Hosts session.root numbering alone)
    {request : Request}
    (made : request.frame < alone.nextFrame)
    (within : ∀ value ∈ request.values, value.Within alone) :
    shared.Admits session (request.map numbering.value numbering.frame) := by
  have inTree := (hosts.frames _).2 ⟨request.frame, made, rfl⟩
  cases request with
  | define frame name value =>
      have owned := hosts.owns_value (within value List.mem_cons_self)
      exact ⟨inTree, List.forall_mem_singleton.2 owned⟩
  | child parent => exact ⟨inTree, List.forall_mem_nil _⟩
  | eval depth frame form =>
      have owned := hosts.owns_value (within form List.mem_cons_self)
      exact ⟨inTree, List.forall_mem_singleton.2 owned⟩
  | lookup frame name => exact ⟨inTree, List.forall_mem_nil _⟩

/-! ### Requests of the session -/

/-- Every frame of the inner store stands below the root. -/
theorem root?_of_mirrors
    {outer : Store}
    (mirrors : alone.Mirrors numbering outer)
    (holds : Invariant.within.Holds alone)
    (single : ∀ frame, frame < alone.nextFrame → frame ≠ 0 → alone.HasParent frame)
    {frame : FrameId}
    (made : frame < alone.nextFrame) :
    outer.root? (numbering.frame frame) = some (numbering.frame 0) := by
  induction frame using Nat.strong_induction_on with
  | h frame ih =>
      obtain ⟨content, found⟩ := Store.exists_frame?_of_lt made
      obtain ⟨other, found', isNumbered⟩ := mirrors.content found
      have sameParent := isNumbered.parent
      by_cases isRoot : frame = 0
      · obtain rfl := isRoot
        have noParent : content.parent = none :=
          Option.eq_none_iff_forall_ne_some.2 fun parent child =>
            Nat.not_lt_zero parent (holds.parent found child)
        rw [noParent] at sameParent
        exact Store.root?_of_root found' sameParent
      · obtain ⟨known, parent, isKnown, child⟩ := single frame made isRoot
        cases found.symm.trans isKnown
        rw [child] at sameParent
        have older := holds.parent found child
        rw [Store.root?_of_child found' sameParent (numbering.frame_strictMono older)]
        exact ih parent older (Nat.lt_trans older made)

/-- The session goes on in both stores. -/
theorem proceed
    {session : Session}
    (hosts : shared.Hosts session.root numbering alone)
    {later after : Store}
    (holds : Invariant.within.Holds later)
    (mirrored : Store.Mirrored numbering alone shared.store later after)
    (keepsAlone : alone.KeepsParents later)
    (keepsShared : shared.store.KeepsParents after) :
    (shared.proceed session after).Hosts session.root numbering later := by
  obtain ⟨functions, frames, count, count', frameCount, frameCount'⟩ := mirrored.inStep
  have newFunctions : after.functions - shared.store.functions = functions := by omega
  have grows : alone.nextFrame ≤ later.nextFrame := frameCount ▸ Nat.le_add_right _ _
  have single : ∀ frame, frame < later.nextFrame → frame ≠ 0 → later.HasParent frame := by
    intro frame made notRoot
    rcases Nat.lt_or_ge frame alone.nextFrame with old | isNew
    · obtain ⟨content, parent, found, child⟩ := hosts.single frame old notRoot
      obtain ⟨changed, foundChanged, sameParent⟩ := keepsAlone frame content found
      exact ⟨changed, parent, foundChanged, sameParent.trans child⟩
    · exact mirrored.hasParent frame isNew made notRoot
  refine ⟨holds, mirrored.mirrors, hosts.root_eq, single, ?_, ?_, ?_⟩
  · intro frame
    constructor
    · intro inTree
      rcases Nat.lt_or_ge frame shared.store.nextFrame with old | isNew
      · have inTreeBefore := (keepsShared.root?_eq old).symm.trans inTree
        obtain ⟨made, isMade, same⟩ := (hosts.frames frame).1 inTreeBefore
        exact ⟨made, Nat.lt_of_lt_of_le isMade grows, same⟩
      · have isMade : frame < after.nextFrame := Store.lt_nextFrame_of_root? inTree
        obtain ⟨count, rfl⟩ := Nat.exists_eq_add_of_le isNew
        refine ⟨alone.nextFrame + count, ?_, hosts.mirrors.frame_next count⟩
        rw [frameCount'] at isMade
        rw [frameCount]
        exact Nat.add_lt_add_left (Nat.lt_of_add_lt_add_left isMade) _
    · rintro ⟨made, isMade, rfl⟩
      rw [← hosts.root_eq]
      exact root?_of_mirrors mirrored.mirrors holds single isMade
  · simp only [SharedStore.proceed, List.length_append, List.length_replicate, hosts.recorded]
    omega
  · intro identity
    simp only [SharedStore.proceed, getElem?_append_replicate_eq_some_iff, hosts.functions,
      newFunctions, hosts.recorded, true_and]
    constructor
    · rintro (⟨made, isMade, same⟩ | ⟨isNew, below⟩)
      · exact ⟨made, by omega, same⟩
      · obtain ⟨more, rfl⟩ := Nat.exists_eq_add_of_le isNew
        exact ⟨alone.functions + more, by omega, hosts.mirrors.function_next more⟩
    · rintro ⟨made, isMade, rfl⟩
      rcases Nat.lt_or_ge made alone.functions with old | isNew
      · exact Or.inl ⟨made, old, rfl⟩
      · obtain ⟨more, rfl⟩ := Nat.exists_eq_add_of_le isNew
        rw [hosts.mirrors.function_next]
        exact Or.inr ⟨by omega, by omega⟩

/-- A request of the session gives the same alone and in the shared store. -/
theorem perform
    {session : Session}
    (hosts : shared.Hosts session.root numbering alone)
    {request : Request}
    (made : request.frame < alone.nextFrame)
    (within : ∀ value ∈ request.values, value.Within alone) :
    Option.Rel
      (fun ending other =>
        other.1 = ending.1.map numbering.value numbering.frame ∧
          (shared.proceed session other.2).Hosts session.root numbering ending.2 ∧
            alone.Precedes ending.2 ∧ ending.1.IsWithin ending.2)
      (alone.perform session request)
      (shared.store.perform session (request.map numbering.value numbering.frame)) := by
  have ends := hosts.mirrors.perform hosts.holds session made within
  generalize performed : alone.perform session request = ending at ends ⊢
  generalize performed' :
    shared.store.perform session (request.map numbering.value numbering.frame) = other at ends ⊢
  cases ends with
  | none => exact .none
  | @some ending other agrees =>
      obtain ⟨sameEvent, mirrored⟩ := agrees
      obtain ⟨precedes, holds, isWithin⟩ :=
        Store.perform_within hosts.holds made within performed
      have keepsAlone := (Store.perform_changesOnly performed).keepsParents
      have keepsShared := (Store.perform_changesOnly performed').keepsParents
      exact .some
        ⟨sameEvent, hosts.proceed holds mirrored keepsAlone keepsShared, precedes, isWithin⟩

/-! ### Requests of other sessions -/

/-- What another session does leaves the tree as it is. -/
theorem elsewhere
    (hosts : shared.Hosts root numbering alone)
    {home : FrameId}
    (inTree : shared.store.root? home = some root)
    {session : Session}
    (different : session.root ≠ root)
    {after : Store}
    (precedes : shared.store.Precedes after)
    (keepsParents : shared.store.KeepsParents after)
    (kept :
      ∀ frame content,
        shared.store.root? frame = some root → shared.store.frame? frame = some content →
          after.frame? frame = some content)
    (foreign :
      ∀ frame, shared.store.nextFrame ≤ frame → after.root? frame ≠ some root) :
    (shared.proceed session after).Hosts root (numbering.later shared.store after) alone where
  holds := hosts.holds
  mirrors := by
    apply hosts.mirrors.later hosts.holds precedes
    intro frame content made found
    exact kept _ content ((hosts.frames _).2 ⟨frame, made, rfl⟩) found
  root_eq := by
    obtain ⟨made, isMade, -⟩ := (hosts.frames home).1 inTree
    have entered := Nat.lt_of_le_of_lt (Nat.zero_le made) isMade
    exact (hosts.mirrors.later_frame after entered).trans hosts.root_eq
  single := hosts.single
  frames := by
    intro frame
    constructor
    · intro inTree
      rcases Nat.lt_or_ge frame shared.store.nextFrame with old | isNew
      · have inTreeBefore := (keepsParents.root?_eq old).symm.trans inTree
        obtain ⟨made, isMade, same⟩ := (hosts.frames frame).1 inTreeBefore
        exact ⟨made, isMade, (hosts.mirrors.later_frame after isMade).trans same⟩
      · exact absurd inTree (foreign frame isNew)
    · rintro ⟨made, isMade, rfl⟩
      have old := hosts.mirrors.frame_lt isMade
      rw [hosts.mirrors.later_frame after isMade]
      exact (keepsParents.root?_eq old).trans ((hosts.frames _).2 ⟨made, isMade, rfl⟩)
  recorded := by
    have grows := precedes.functions
    simp only [SharedStore.proceed, List.length_append, List.length_replicate, hosts.recorded]
    omega
  functions := by
    intro identity
    simp only [SharedStore.proceed, getElem?_append_replicate_eq_some_iff, different, false_and,
      or_false, hosts.functions]
    constructor
    · rintro ⟨made, isMade, same⟩
      exact ⟨made, isMade, (hosts.mirrors.later_function after isMade).trans same⟩
    · rintro ⟨made, isMade, same⟩
      exact ⟨made, isMade, (hosts.mirrors.later_function after isMade).symm.trans same⟩

/-- All frames that a session has opened since are of its tree. -/
theorem root?_of_new
    (hosts : shared.Hosts root numbering alone)
    {after : SharedStore}
    {later : Store}
    (hostsThen : after.Hosts root numbering later)
    {frame : FrameId}
    (isNew : shared.store.nextFrame ≤ frame)
    (made : frame < after.store.nextFrame) :
    after.store.root? frame = some root := by
  obtain ⟨count, rfl⟩ := Nat.exists_eq_add_of_le isNew
  have same := hosts.mirrors.frame_next count
  refine (hostsThen.frames _).2 ⟨alone.nextFrame + count, ?_, same⟩
  have next := hostsThen.mirrors.frame_next 0
  rw [Nat.add_zero, Nat.add_zero] at next
  rw [← same, ← next] at made
  exact numbering.frame_strictMono.lt_iff_lt.1 made

theorem precedes
    (hosts : shared.Hosts root numbering alone)
    {after : SharedStore}
    {later : Store}
    (hostsThen : after.Hosts root numbering later)
    (precedes : alone.Precedes later) :
    shared.store.Precedes after.store where
  functions := by
    have earlyCount := hosts.mirrors.function_next 0
    have lateCount := hostsThen.mirrors.function_next 0
    rw [Nat.add_zero, Nat.add_zero] at earlyCount lateCount
    rw [← earlyCount, ← lateCount]
    exact numbering.function_strictMono.monotone precedes.functions
  frames := by
    have earlyCount := hosts.mirrors.frame_next 0
    have lateCount := hostsThen.mirrors.frame_next 0
    rw [Nat.add_zero, Nat.add_zero] at earlyCount lateCount
    rw [← earlyCount, ← lateCount]
    exact numbering.frame_strictMono.monotone precedes.frames

end Hosts

end SharedStore

end MiniLisp
