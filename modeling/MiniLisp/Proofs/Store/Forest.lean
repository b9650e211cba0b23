import MiniLisp.Proofs.Eval.Reachable

/-!
# Lookup against the past

This module supplies what a name means in a frame, told from all that was ever
done to the frames.  A program holds on to frames by handles, any number of which
may stand for one frame.  It opens roots and children, takes more handles on
frames, defines names and defines the builtin functions; the frames that come
about are a forest (`Forest.Grown`).  A chronicle keeps what was done and forgets
the frames themselves (`Chronicle`): it knows the parent with which each frame was
opened, and every value that was ever defined.

The frames hold what the chronicle tells (`Forest.Grown.told`).  Parents are older
than their children, so that the ancestors of a frame come to an end, and with
them a search that looks at a frame and goes on to its parent for as long as the
name is not bound (`Store.Searches`).  The search finds the latest definition in
the nearest frame that has one (`Forest.lookup_grown`).
-/

namespace MiniLisp

/-! ## Chronicles -/

/-- A thing that was done to the frames of a store. -/
inductive Deed where
  | opened (parent : Option FrameId)
  | defined (frame : FrameId) (name : String) (value : Value)

namespace Deed

/-- The parent of the frame that was opened, where the deed was to open one. -/
def parent? : Deed → Option (Option FrameId)
  | opened parent => some parent
  | defined .. => none

/-- The value that was defined for the name in the frame, where the deed was to do so. -/
def value? (frame : FrameId) (name : String) : Deed → Option Value
  | opened _ => none
  | defined target other value =>
    if target = frame ∧ other = name then
      some value
    else
      none

/-- The definitions of builtin functions, which are numbered from the first one on. -/
def ofBuiltins (frame : FrameId) (first : Nat) (builtins : List Builtin) : List Deed :=
  (builtins.zipIdx first).map fun pair =>
    defined frame pair.1.name (.native pair.2 pair.1)

end Deed

/-- All that was done to the frames of a store, oldest first. -/
abbrev Chronicle := List Deed

namespace Chronicle

/-- The parents of all frames that were opened, in the order of the frames. -/
def parents (chronicle : Chronicle) : List (Option FrameId) :=
  chronicle.filterMap Deed.parent?

/-- The value that was defined last for a name in a frame. -/
def latest? (chronicle : Chronicle) (frame : FrameId) (name : String) : Option Value :=
  (chronicle.filterMap (Deed.value? frame name)).getLast?

/-- The chain of a frame: the frame itself, its parent, and so on up to a root. -/
inductive Ascends (chronicle : Chronicle) : FrameId → List FrameId → Prop where
  | root
      {frame : FrameId}
      (opened : chronicle.parents[frame]? = some none) :
      Ascends chronicle frame [frame]
  | child
      {frame parent : FrameId}
      {chain : List FrameId}
      (opened : chronicle.parents[frame]? = some (some parent))
      (ascends : Ascends chronicle parent chain) :
      Ascends chronicle frame (frame :: chain)

/-- The latest value of a name in the nearest frame of a chain in which it was ever defined. -/
def nearest? (chronicle : Chronicle) (chain : List FrameId) (name : String) : Option Value :=
  chain.findSome? fun frame => chronicle.latest? frame name

theorem parents_append
    (early late : Chronicle) :
    parents (early ++ late) = parents early ++ parents late :=
  List.filterMap_append

/-- The latest of two chronicles counts, if it tells of a definition. -/
theorem latest?_append
    (early late : Chronicle)
    (frame : FrameId)
    (name : String) :
    latest? (early ++ late) frame name =
      (latest? late frame name).or (latest? early frame name) := by
  rw [latest?, List.filterMap_append, List.getLast?_append]
  rfl

/-- The chronicle leaves no choice for the chain of a frame. -/
theorem Ascends.unique
    {chronicle : Chronicle}
    {frame : FrameId}
    {chain other : List FrameId}
    (ascends : chronicle.Ascends frame chain)
    (ascends' : chronicle.Ascends frame other) :
    chain = other := by
  induction ascends generalizing other with
  | root opened =>
      cases ascends' with
      | root => rfl
      | child opened' =>
          rw [opened] at opened'
          cases opened'
  | child opened _ ih =>
      cases ascends' with
      | root opened' =>
          rw [opened] at opened'
          cases opened'
      | child opened' above =>
          rw [opened] at opened'
          cases opened'
          rw [ih above]

/-- A name has a latest value in a frame exactly if it was ever defined there. -/
theorem isSome_latest?_iff
    (chronicle : Chronicle)
    (frame : FrameId)
    (name : String) :
    (chronicle.latest? frame name).isSome = true ↔
      ∃ value, Deed.defined frame name value ∈ chronicle := by
  rw [latest?, List.getLast?_isSome]
  constructor
  · intro notNil
    obtain ⟨value, member⟩ := List.exists_mem_of_ne_nil _ notNil
    obtain ⟨deed, told, gives⟩ := List.mem_filterMap.1 member
    cases deed with
    | opened => cases gives
    | defined target other latest =>
        simp only [Deed.value?, Option.ite_none_right_eq_some] at gives
        obtain ⟨⟨rfl, rfl⟩, -⟩ := gives
        exact ⟨latest, told⟩
  · rintro ⟨value, told⟩
    have member : value ∈ chronicle.filterMap (Deed.value? frame name) :=
      List.mem_filterMap.2 ⟨_, told, if_pos ⟨rfl, rfl⟩⟩
    exact List.ne_nil_of_mem member

end Chronicle

/-! ## Forests -/

/-- A store, the frames that handles stand for, and all that was done to the frames. -/
structure Forest where
  store : Store
  handles : List FrameId
  chronicle : Chronicle

namespace Forest

/-- The forest before anything was done. -/
def empty : Forest := ⟨Store.empty, [], []⟩

/-- The forest with one more frame, and a handle on it. -/
def addFrame (forest : Forest) (parent : Option FrameId) : Forest where
  store := forest.store.addFrame ⟨[], parent⟩
  handles := forest.handles ++ [forest.store.nextFrame]
  chronicle := forest.chronicle ++ [.opened parent]

/-- The forest with one more handle on a frame. -/
def share (forest : Forest) (frame : FrameId) : Forest :=
  { forest with handles := forest.handles ++ [frame] }

/-- The forest with a name bound in a frame. -/
def define (forest : Forest) (frame : FrameId) (name : String) (value : Value) : Forest :=
  { forest with
    store := forest.store.define frame name value
    chronicle := forest.chronicle ++ [.defined frame name value] }

/-- The forest with all builtin functions made anew and bound in a frame. -/
def defineBuiltins (forest : Forest) (frame : FrameId) : Forest :=
  { forest with
    store := forest.store.defineBuiltins frame
    chronicle :=
      forest.chronicle ++ Deed.ofBuiltins frame forest.store.functions Builtin.all }

/-- One thing that is done with a forest, through a handle unless it opens a root. -/
inductive Step : Forest → Forest → Prop where
  | root (forest : Forest) : Step forest (forest.addFrame none)
  | child
      {forest : Forest}
      {parent : FrameId}
      (held : parent ∈ forest.handles) :
      Step forest (forest.addFrame (some parent))
  | share
      {forest : Forest}
      {frame : FrameId}
      (held : frame ∈ forest.handles) :
      Step forest (forest.share frame)
  | define
      {forest : Forest}
      {frame : FrameId}
      (held : frame ∈ forest.handles)
      (name : String)
      (value : Value) :
      Step forest (forest.define frame name value)
  | defineBuiltins
      {forest : Forest}
      {frame : FrameId}
      (held : frame ∈ forest.handles) :
      Step forest (forest.defineBuiltins frame)

/-- The forests that result from the empty one, step by step. -/
inductive Grown : Forest → Prop where
  | empty : Grown Forest.empty
  | step
      {before after : Forest}
      (grown : before.Grown)
      (step : before.Step after) :
      Grown after

end Forest

/-! ## What the frames hold -/

namespace Store

/-- The value that a frame itself binds to a name. -/
def own? (store : Store) (frame : FrameId) (name : String) : Option Value :=
  (store.frame? frame).bind fun content => content.bindings.get? name

/-- The parents of all frames, in the order of the frames. -/
def parents (store : Store) : List (Option FrameId) :=
  store.frames.toList.map Frame.parent

theorem isLocal_eq
    (store : Store)
    (frame : FrameId)
    (name : String) :
    store.isLocal frame name = (store.own? frame name).isSome := by
  rw [isLocal, own?]
  cases store.frame? frame with
  | none => rfl
  | some content => rfl

theorem own?_of_frame?
    {store : Store}
    {frame : FrameId}
    {content : Frame}
    (found : store.frame? frame = some content)
    (name : String) :
    store.own? frame name = content.bindings.get? name := by
  rw [own?, found]
  rfl

theorem own?_addFrame
    (store : Store)
    (parent : Option FrameId)
    (frame : FrameId)
    (name : String) :
    (store.addFrame ⟨[], parent⟩).own? frame name = store.own? frame name := by
  rw [own?, own?, frame?_addFrame]
  split
  · next same =>
      have fresh : store.frame? frame = none := by
        rw [same]
        exact Array.getElem?_size
      rw [fresh]
      rfl
  · rfl

theorem own?_define
    {store : Store}
    {target : FrameId}
    (made : target < store.nextFrame)
    (defined : String)
    (value : Value)
    (frame : FrameId)
    (name : String) :
    (store.define target defined value).own? frame name =
      if target = frame ∧ defined = name then some value else store.own? frame name := by
  rw [own?, frame?_define]
  by_cases same : frame = target
  · obtain rfl := same
    obtain ⟨content, found⟩ := exists_frame?_of_lt made
    rw [own?_of_frame? found, if_pos rfl, found]
    refine (Bindings.get?_define content.bindings defined value name).trans ?_
    simp only [true_and, eq_comm]
  · rw [if_neg same, if_neg fun both => same both.1.symm]
    rfl

theorem parents_addFrame
    (store : Store)
    (content : Frame) :
    (store.addFrame content).parents = store.parents ++ [content.parent] := by
  rw [parents, addFrame, Array.toList_push, List.map_append]
  rfl

theorem parents_define
    (store : Store)
    (frame : FrameId)
    (name : String)
    (value : Value) :
    (store.define frame name value).parents = store.parents := by
  rw [parents, define, Array.toList_modify]
  refine List.ext_getElem? fun index => ?_
  rw [parents, List.getElem?_map, List.getElem?_map, List.getElem?_modify]
  cases store.frames.toList[index]? with
  | none => rfl
  | some content =>
      by_cases same : frame = index <;> simp [same]

theorem length_parents (store : Store) :
    store.parents.length = store.nextFrame := by
  rw [parents, List.length_map]
  rfl

theorem getElem?_parents
    (store : Store)
    (frame : FrameId) :
    store.parents[frame]? = (store.frame? frame).map Frame.parent := by
  rw [parents, List.getElem?_map, Array.getElem?_toList]
  rfl

end Store

/-- The frames hold what a chronicle tells, and parents are older than their children. -/
structure Chronicle.Tells (chronicle : Chronicle) (store : Store) : Prop where
  parents : store.parents = chronicle.parents
  own : ∀ frame name, store.own? frame name = chronicle.latest? frame name
  older :
    ∀ (frame parent : FrameId),
      store.parents[frame]? = some (some parent) → parent < frame

namespace Chronicle.Tells

variable
  {chronicle : Chronicle}
  {store : Store}

theorem empty : Chronicle.Tells [] Store.empty where
  parents := rfl
  own := fun _ _ => rfl
  older := nofun

theorem addFrame
    (tells : chronicle.Tells store)
    {parent : Option FrameId}
    (made : ∀ frame, parent = some frame → frame < store.nextFrame) :
    Chronicle.Tells (chronicle ++ [.opened parent]) (store.addFrame ⟨[], parent⟩) where
  parents := by
    rw [Store.parents_addFrame, parents_append, tells.parents]
    rfl
  own := by
    intro frame name
    rw [Store.own?_addFrame, latest?_append, tells.own]
    rfl
  older := by
    intro frame above opened
    rw [Store.parents_addFrame, List.getElem?_append] at opened
    split at opened
    · exact tells.older frame above opened
    · next later =>
        rw [Store.length_parents] at later opened
        obtain ⟨inside, isParent⟩ := List.getElem?_eq_some_iff.1 opened
        rw [List.getElem_singleton] at isParent
        exact Nat.lt_of_lt_of_le (made above isParent) (Nat.le_of_not_lt later)

theorem define
    (tells : chronicle.Tells store)
    {frame : FrameId}
    (made : frame < store.nextFrame)
    (name : String)
    (value : Value) :
    Chronicle.Tells (chronicle ++ [.defined frame name value])
      (store.define frame name value) where
  parents := by
    rw [Store.parents_define, parents_append, tells.parents]
    exact (List.append_nil chronicle.parents).symm
  own := by
    intro other asked
    rw [Store.own?_define made, latest?_append, tells.own]
    by_cases same : frame = other ∧ name = asked
    · simp [latest?, Deed.value?, same]
    · simp [latest?, Deed.value?, same]
  older := by
    rw [Store.parents_define]
    exact tells.older

/-- The numbers of functions are no matter of the frames. -/
theorem addFunction
    (tells : chronicle.Tells store) :
    chronicle.Tells store.addFunction :=
  ⟨tells.parents, tells.own, tells.older⟩

theorem defineBuiltins
    (tells : chronicle.Tells store)
    {frame : FrameId}
    (made : frame < store.nextFrame) :
    Chronicle.Tells (chronicle ++ Deed.ofBuiltins frame store.functions Builtin.all)
      (store.defineBuiltins frame) := by
  rw [Store.defineBuiltins_eq_foldl]
  induction Builtin.all generalizing store chronicle with
  | nil => simpa [Deed.ofBuiltins] using tells
  | cons builtin builtins ih =>
      have defined := (tells.define made builtin.name (.native store.functions builtin)).addFunction
      have made' : frame < (store.defineBuiltin frame builtin).nextFrame := by
        rwa [Store.nextFrame_defineBuiltin]
      have rest := ih defined made'
      rwa [List.append_assoc] at rest

end Chronicle.Tells

namespace Forest

/-- The frames hold what the chronicle tells, and handles stand for frames that were made. -/
structure IsTold (forest : Forest) : Prop where
  tells : forest.chronicle.Tells forest.store
  held : ∀ frame ∈ forest.handles, frame < forest.store.nextFrame

namespace IsTold

variable
  {forest : Forest}
  (told : forest.IsTold)

include told

theorem addFrame
    {parent : Option FrameId}
    (made : ∀ frame, parent = some frame → frame < forest.store.nextFrame) :
    (forest.addFrame parent).IsTold where
  tells := told.tells.addFrame made
  held := by
    have size := Store.nextFrame_addFrame forest.store ⟨[], parent⟩
    refine List.forall_mem_append.2 ⟨fun frame held => ?_, List.forall_mem_singleton.2 ?_⟩
    · exact Nat.lt_of_lt_of_eq (Nat.lt_succ_of_lt (told.held frame held)) size.symm
    · exact Nat.lt_of_lt_of_eq (Nat.lt_succ_self forest.store.nextFrame) size.symm

/-- Each step tells what it does to the frames. -/
theorem step
    {after : Forest}
    (step : forest.Step after) :
    after.IsTold := by
  cases step with
  | root => exact told.addFrame nofun
  | child held =>
      apply told.addFrame
      rintro _ ⟨⟩
      exact told.held _ held
  | @share frame held =>
      refine ⟨told.tells, List.forall_mem_append.2 ⟨told.held, ?_⟩⟩
      exact List.forall_mem_singleton.2 (told.held frame held)
  | @define frame held name value =>
      refine ⟨told.tells.define (told.held frame held) name value, fun other held => ?_⟩
      have size := Store.nextFrame_define forest.store frame name value
      exact Nat.lt_of_lt_of_eq (told.held other held) size.symm
  | @defineBuiltins frame held =>
      refine ⟨told.tells.defineBuiltins (told.held frame held), fun other held => ?_⟩
      -- Both are unfolded first, or the unifier compares the stores to find the handles alike.
      simp only [defineBuiltins] at held ⊢
      rw [Store.nextFrame_defineBuiltins]
      exact told.held other held

end IsTold

/-- The frames of a forest hold what its chronicle tells. -/
theorem Grown.isTold
    {forest : Forest}
    (grown : forest.Grown) :
    forest.IsTold := by
  induction grown with
  | empty => exact ⟨.empty, List.forall_mem_nil _⟩
  | step _ step ih => exact ih.step step

end Forest

/-! ## The search -/

/--
What comes of looking for a name in a frame and then, for as long as it is not
bound, in one parent after the other.
-/
inductive Store.Searches (store : Store) (name : String) : FrameId → Option Value → Prop where
  | bound
      {frame : FrameId}
      {content : Frame}
      {value : Value}
      (found : store.frame? frame = some content)
      (bound : content.bindings.get? name = some value) :
      Searches store name frame (some value)
  | root
      {frame : FrameId}
      {content : Frame}
      (found : store.frame? frame = some content)
      (unbound : content.bindings.get? name = none)
      (root : content.parent = none) :
      Searches store name frame none
  | parent
      {frame parent : FrameId}
      {content : Frame}
      {result : Option Value}
      (found : store.frame? frame = some content)
      (unbound : content.bindings.get? name = none)
      (child : content.parent = some parent)
      (above : Searches store name parent result) :
      Searches store name frame result

namespace Chronicle.Tells

variable
  {chronicle : Chronicle}
  {store : Store}
  (tells : chronicle.Tells store)

include tells

theorem parents_getElem?
    {frame : FrameId}
    {content : Frame}
    (found : store.frame? frame = some content) :
    chronicle.parents[frame]? = some content.parent := by
  rw [← tells.parents, Store.getElem?_parents, found]
  rfl

/-- The frame of which the chronicle tells the parent, and that the parent is older. -/
theorem exists_frame?
    {frame : FrameId}
    {parent : Option FrameId}
    (opened : chronicle.parents[frame]? = some parent) :
    ∃ content,
      store.frame? frame = some content ∧
        content.parent = parent ∧
          ∀ above, parent = some above → above < frame := by
  rw [← tells.parents] at opened
  have older := tells.older frame
  rw [opened] at older
  rw [Store.getElem?_parents] at opened
  obtain ⟨content, found, isParent⟩ := Option.map_eq_some_iff.1 opened
  exact ⟨content, found, isParent, fun above same => older above (congrArg some same)⟩

/-- Every frame has a chain: parents are older, so that the ancestors come to an end. -/
theorem exists_ascends
    {frame : FrameId}
    (made : frame < store.nextFrame) :
    ∃ chain, chronicle.Ascends frame chain := by
  induction frame using Nat.strongRecOn with
  | ind frame ih =>
      obtain ⟨content, found⟩ := Store.exists_frame?_of_lt made
      have opened := tells.parents_getElem? found
      cases child : content.parent with
      | none =>
          rw [child] at opened
          exact ⟨[frame], .root opened⟩
      | some parent =>
          rw [child] at opened
          obtain ⟨-, -, -, older⟩ := tells.exists_frame? opened
          have isOlder := older parent rfl
          obtain ⟨chain, ascends⟩ := ih parent isOlder (Nat.lt_trans isOlder made)
          exact ⟨frame :: chain, .child opened ascends⟩

theorem get?_eq
    {frame : FrameId}
    {content : Frame}
    (found : store.frame? frame = some content)
    (name : String) :
    content.bindings.get? name = chronicle.latest? frame name := by
  rw [← tells.own, Store.own?_of_frame? found]

/-- The search along a chain finds the latest value in the nearest frame that has one. -/
theorem searches
    {frame : FrameId}
    {chain : List FrameId}
    (ascends : chronicle.Ascends frame chain)
    (name : String) :
    store.Searches name frame (chronicle.nearest? chain name) := by
  induction ascends with
  | @root frame opened =>
      obtain ⟨content, found, root, -⟩ := tells.exists_frame? opened
      have own := tells.get?_eq found name
      cases latest : chronicle.latest? frame name with
      | some value =>
          rw [nearest?, List.findSome?_cons, latest]
          exact .bound found (own.trans latest)
      | none =>
          rw [nearest?, List.findSome?_cons, latest]
          exact .root found (own.trans latest) root
  | @child frame parent chain opened _ ih =>
      obtain ⟨content, found, child, -⟩ := tells.exists_frame? opened
      have own := tells.get?_eq found name
      cases latest : chronicle.latest? frame name with
      | some value =>
          rw [nearest?, List.findSome?_cons, latest]
          exact .bound found (own.trans latest)
      | none =>
          rw [nearest?, List.findSome?_cons, latest]
          exact .parent found (own.trans latest) child ih

/-- The lookup gives what the search finds, as it never meets a parent that is not older. -/
theorem lookup?_of_searches
    {name : String}
    {frame : FrameId}
    {result : Option Value}
    (searches : store.Searches name frame result) :
    store.lookup? frame name = result := by
  induction searches with
  | bound found bound => exact Store.lookup?_of_bound found bound
  | root found unbound root => exact Store.lookup?_of_root found unbound root
  | parent found unbound child _ ih =>
      obtain ⟨-, -, -, older⟩ := tells.exists_frame? (tells.parents_getElem? found)
      rw [Store.lookup?_of_child found unbound child (older _ child), ih]

/-- A definition in a frame that is not on the chain, or lies behind a bound one, is not seen. -/
theorem exists_of_lookup?_define_ne
    {frame : FrameId}
    {chain : List FrameId}
    (ascends : chronicle.Ascends frame chain)
    {name : String}
    {target : FrameId}
    {value : Value}
    (changes :
      (store.define target name value).lookup? frame name ≠ store.lookup? frame name) :
    ∃ nearer farther,
      chain = nearer ++ target :: farther ∧
        ∀ between ∈ nearer, store.isLocal between name = false := by
  induction ascends with
  | @root frame opened =>
      obtain ⟨content, found, root, -⟩ := tells.exists_frame? opened
      by_cases same : frame = target
      · exact ⟨[], [], by rw [same, List.nil_append], List.forall_mem_nil _⟩
      · have found' : (store.define target name value).frame? frame = some content := by
          rw [Store.frame?_define, if_neg same, found]
        apply absurd ?_ changes
        rw [Store.lookup?, Store.lookup?, found', found]
        simp only [root]
  | @child frame parent chain opened _ ih =>
      obtain ⟨content, found, child, older⟩ := tells.exists_frame? opened
      by_cases same : frame = target
      · exact ⟨[], chain, by rw [same, List.nil_append], List.forall_mem_nil _⟩
      · have found' : (store.define target name value).frame? frame = some content := by
          rw [Store.frame?_define, if_neg same, found]
        cases own : content.bindings.get? name with
        | some bound =>
            apply absurd ?_ changes
            rw [Store.lookup?_of_bound found own, Store.lookup?_of_bound found' own]
        | none =>
            have isOlder := older parent rfl
            rw [Store.lookup?_of_child found own child isOlder,
              Store.lookup?_of_child found' own child isOlder] at changes
            obtain ⟨nearer, farther, whole, unbound⟩ := ih changes
            refine ⟨frame :: nearer, farther, by rw [whole, List.cons_append], ?_⟩
            refine List.forall_mem_cons.2 ⟨?_, unbound⟩
            rw [Store.isLocal_eq, Store.own?_of_frame? found, own]
            rfl

end Chronicle.Tells

namespace Forest

/--
In a forest that was grown from nothing, the search for a name from a frame ends,
with the latest value in the nearest frame of the chain in which the name was ever
defined.  The lookup gives that value, or the fault that the name is unbound, and
leaves the store alone; a name is defined exactly if the lookup gives a value, and
local exactly if it was defined in the frame itself.  One more definition changes
what is found only if it is made in a frame of the chain, behind none that binds
the name.
-/
theorem lookup_grown
    {forest : Forest}
    (grown : forest.Grown)
    {frame : FrameId}
    (made : frame < forest.store.nextFrame)
    (name : String) :
    ∃ chain,
      forest.chronicle.Ascends frame chain ∧
        forest.store.Searches name frame (forest.chronicle.nearest? chain name) ∧
          (Action.lookup frame name).outcome forest.store =
            some
              ((forest.chronicle.nearest? chain name).elim (.error (.unbound name)) .ok,
                forest.store) ∧
            (forest.store.isDefined frame name = true ↔
              ∃ value,
                (Action.lookup frame name).outcome forest.store =
                  some (.ok value, forest.store)) ∧
              (forest.store.isLocal frame name = true ↔
                ∃ value, .defined frame name value ∈ forest.chronicle) ∧
                ∀ target value,
                  (forest.store.define target name value).lookup? frame name ≠
                      forest.store.lookup? frame name →
                    ∃ nearer farther,
                      chain = nearer ++ target :: farther ∧
                        ∀ between ∈ nearer, forest.store.isLocal between name = false := by
  have tells := grown.isTold.tells
  obtain ⟨chain, ascends⟩ := tells.exists_ascends made
  have searches := tells.searches ascends name
  have found := tells.lookup?_of_searches searches
  have outcome :
      (Action.lookup frame name).outcome forest.store =
        some
          ((forest.chronicle.nearest? chain name).elim (.error (.unbound name)) .ok,
            forest.store) := by
    rw [Action.outcome_lookup, found]
    cases forest.chronicle.nearest? chain name with
    | none => rfl
    | some value => rfl
  refine ⟨chain, ascends, searches, outcome, ?_, ?_, ?_⟩
  · rw [Store.isDefined, found, outcome]
    cases forest.chronicle.nearest? chain name with
    | none => simp
    | some value => simp
  · rw [Store.isLocal_eq, tells.own, Chronicle.isSome_latest?_iff]
  · intro target value changes
    exact tells.exists_of_lookup?_define_ne ascends changes

/-- A root and a child with two handles: the name is bound in the child, then in the root. -/
def shadowed : Forest :=
  ((((Forest.empty.addFrame none).addFrame (some 0)).share 1).define 1 "x" (.number 5)).define
    0 "x" (.number 1)

theorem grown_shadowed : shadowed.Grown := by
  refine .step (.step (.step (.step (.step .empty (.root _)) (.child ?_)) (.share ?_))
    (.define ?_ "x" _)) (.define ?_ "x" _)
  all_goals decide

/-- The child is asked for the value that it was given through its second handle. -/
theorem lookup_grown_of_shadowed :
    shadowed.Grown ∧
      1 < shadowed.store.nextFrame ∧
        shadowed.chronicle.Ascends 1 [1, 0] ∧
          (Action.lookup 1 "x").outcome shadowed.store =
            some (.ok (.number 5), shadowed.store) := by
  have made : 1 < shadowed.store.nextFrame := by decide
  have chain : shadowed.chronicle.Ascends 1 [1, 0] := .child rfl (.root rfl)
  obtain ⟨chain', ascends, -, outcome, -⟩ := lookup_grown grown_shadowed made "x"
  obtain rfl := ascends.unique chain
  exact ⟨grown_shadowed, made, chain, outcome⟩

end Forest

end MiniLisp
