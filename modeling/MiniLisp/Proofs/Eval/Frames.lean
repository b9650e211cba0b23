import MiniLisp.Eval.Action
import Mathlib.Order.Defs.Unbundled

/-!
# Effects of actions on frames

This module supplies two relations between the stores before and after an action.
The stronger one says that every frame that was there is there unchanged
(`Store.Keeps`).  The weaker one excepts a single frame, in which names from a
given range may be bound anew (`Store.ChangesOnly`).  Both allow new frames.

An action respects a relation if all stores that it leaves are so related to the
first, whether it gives a result or a fault (`Action.Respects`).

What frames bind is treated in one place as well: a property of all bindings passes to
the frames that are added and to the names that are defined, and what is looked up has it
(`Store.Binds`).
-/

namespace MiniLisp

namespace Bindings

/-- Of several definitions of one name the last one counts. -/
theorem get?_foldl_define
    (pairs : List (String × Value))
    (bindings : Bindings)
    (name : String) :
    (pairs.foldl (fun bindings pair => define pair.1 pair.2 bindings) bindings).get? name =
      (pairs.reverse.lookup name).or (bindings.get? name) := by
  induction pairs generalizing bindings with
  | nil => rfl
  | cons pair pairs ih =>
      obtain ⟨first, value⟩ := pair
      rw [List.foldl_cons, ih, get?_define, List.reverse_cons, List.lookup_append,
        Option.or_assoc]
      congr 1
      by_cases same : name = first
      · simp [same]
      · simp [same, List.lookup_cons, beq_eq_false_iff_ne.2 same]

theorem get?_ofPairs
    (pairs : List (String × Value))
    (name : String) :
    (ofPairs pairs).get? name = pairs.reverse.lookup name := by
  rw [ofPairs, get?_foldl_define, get?_nil, Option.or_none]

theorem mem_of_get?_ofPairs
    {pairs : List (String × Value)}
    {name : String}
    {value : Value}
    (bound : (ofPairs pairs).get? name = some value) :
    (name, value) ∈ pairs := by
  rw [get?_ofPairs, List.lookup_eq_some_iff] at bound
  obtain ⟨before, after, whole, -⟩ := bound
  rw [← List.mem_reverse, whole]
  simp

end Bindings

/-- The frame has the same parent, and has bound or bound anew only names of a range. -/
structure Frame.Grows (names : String → Prop) (old new : Frame) : Prop where
  parent : new.parent = old.parent
  bound :
    ∀ name,
      (old.bindings.get? name).isSome = true → (new.bindings.get? name).isSome = true
  unnamed :
    ∀ name, ¬ names name → new.bindings.get? name = old.bindings.get? name

namespace Frame.Grows

theorem refl
    (names : String → Prop)
    (frame : Frame) :
    frame.Grows names frame :=
  ⟨rfl, fun _ isBound => isBound, fun _ _ => rfl⟩

theorem trans
    {names : String → Prop}
    {first second third : Frame}
    (early : first.Grows names second)
    (late : second.Grows names third) :
    first.Grows names third where
  parent := late.parent.trans early.parent
  bound := fun name isBound => late.bound name (early.bound name isBound)
  unnamed := fun name noName => (late.unnamed name noName).trans (early.unnamed name noName)

theorem mono
    {names more : String → Prop}
    {old new : Frame}
    (grows : old.Grows names new)
    (wider : ∀ name, names name → more name) :
    old.Grows more new where
  parent := grows.parent
  bound := grows.bound
  unnamed := fun name noName => grows.unnamed name fun isName => noName (wider name isName)

/-- A definition binds its own name, and keeps what is bound to all others. -/
theorem define
    {names : String → Prop}
    {name : String}
    (isName : names name)
    (frame : Frame)
    (value : Value) :
    frame.Grows names { frame with bindings := frame.bindings.define name value } where
  parent := rfl
  bound := by
    intro other isBound
    show ((frame.bindings.define name value).get? other).isSome = true
    rw [Bindings.get?_define]
    split
    · rfl
    · exact isBound
  unnamed := by
    intro other noName
    show (frame.bindings.define name value).get? other = _
    rw [Bindings.get?_define, if_neg]
    rintro rfl
    exact noName isName

end Frame.Grows

namespace Store

/-- Every frame is still there, with the bindings and the parent that it had. -/
def Keeps (before after : Store) : Prop :=
  ∀ frame content, before.frame? frame = some content → after.frame? frame = some content

/--
Every frame but one is kept, and the one is still there, with the parent and all
the names that it had; no names but those of a range are bound anew in it.
-/
structure ChangesOnly
    (frame : FrameId)
    (names : String → Prop)
    (before after : Store) :
    Prop where
  others :
    ∀ other content,
      other ≠ frame → before.frame? other = some content → after.frame? other = some content
  own :
    ∀ content,
      before.frame? frame = some content →
        ∃ changed, after.frame? frame = some changed ∧ content.Grows names changed

instance : IsPreorder Store Keeps where
  refl := fun _ _ _ found => found
  trans := fun _ _ _ early late frame content found =>
    late frame content (early frame content found)

theorem Keeps.changesOnly
    {before after : Store}
    (keeps : before.Keeps after)
    (frame : FrameId)
    (names : String → Prop) :
    before.ChangesOnly frame names after where
  others := fun other content _ found => keeps other content found
  own := fun content found => ⟨content, keeps frame content found, .refl names content⟩

instance
    (frame : FrameId)
    (names : String → Prop) :
    IsPreorder Store (ChangesOnly frame names) where
  refl := by
    intro store
    have keeps : store.Keeps store := Std.Refl.refl store
    exact keeps.changesOnly frame names
  trans := by
    intro first second third early late
    constructor
    · intro other content different found
      exact late.others other content different (early.others other content different found)
    · intro content found
      obtain ⟨between, foundBetween, growsEarly⟩ := early.own content found
      obtain ⟨changed, foundChanged, growsLate⟩ := late.own between foundBetween
      exact ⟨changed, foundChanged, growsEarly.trans growsLate⟩

theorem keeps_of_frames_eq
    {before after : Store}
    (same : after.frames = before.frames) :
    before.Keeps after := by
  intro frame content found
  rw [frame?, same]
  exact found

theorem lt_nextFrame_of_frame?
    {store : Store}
    {frame : FrameId}
    {content : Frame}
    (found : store.frame? frame = some content) :
    frame < store.nextFrame :=
  (Array.getElem?_eq_some_iff.1 found).1

theorem exists_frame?_of_lt
    {store : Store}
    {frame : FrameId}
    (made : frame < store.nextFrame) :
    ∃ content, store.frame? frame = some content :=
  ⟨_, Array.getElem?_eq_getElem made⟩

@[simp]
theorem nextFrame_addFrame
    (store : Store)
    (content : Frame) :
    (store.addFrame content).nextFrame = store.nextFrame + 1 :=
  Array.size_push content

@[simp]
theorem nextFrame_define
    (store : Store)
    (frame : FrameId)
    (name : String)
    (value : Value) :
    (store.define frame name value).nextFrame = store.nextFrame :=
  Array.size_modify

theorem frame?_define_self
    {store : Store}
    {frame : FrameId}
    {content : Frame}
    (found : store.frame? frame = some content)
    (name : String)
    (value : Value) :
    (store.define frame name value).frame? frame =
      some { content with bindings := content.bindings.define name value } := by
  rw [frame?_define, if_pos rfl, found]
  rfl

theorem lookup?_of_bound
    {store : Store}
    {frame : FrameId}
    {content : Frame}
    {name : String}
    {value : Value}
    (found : store.frame? frame = some content)
    (bound : content.bindings.get? name = some value) :
    store.lookup? frame name = some value := by
  rw [lookup?, found]
  simp only [bound]

theorem lookup?_of_root
    {store : Store}
    {frame : FrameId}
    {content : Frame}
    {name : String}
    (found : store.frame? frame = some content)
    (unbound : content.bindings.get? name = none)
    (root : content.parent = none) :
    store.lookup? frame name = none := by
  rw [lookup?, found]
  simp only [unbound, root]

/-- A name that a frame does not bind is looked up in the parent. -/
theorem lookup?_of_child
    {store : Store}
    {frame parent : FrameId}
    {content : Frame}
    {name : String}
    (found : store.frame? frame = some content)
    (unbound : content.bindings.get? name = none)
    (child : content.parent = some parent)
    (older : parent < frame) :
    store.lookup? frame name = store.lookup? parent name := by
  rw [lookup?, found]
  simp only [unbound, child, if_pos older]

/-- A new frame stands beside the frames that are there. -/
theorem keeps_addFrame
    (store : Store)
    (content : Frame) :
    store.Keeps (store.addFrame content) := by
  intro frame old found
  rw [frame?_addFrame, if_neg, found]
  rintro rfl
  rw [frame?, nextFrame, Array.getElem?_size] at found
  cases found

/-- What the frames bind has a property, which may depend on the name. -/
def Binds (store : Store) (property : String → Value → Prop) : Prop :=
  ∀ frame content name value,
    store.frame? frame = some content →
      content.bindings.get? name = some value → property name value

namespace Binds

variable
  {store : Store}
  {property : String → Value → Prop}

theorem mono
    {weaker : String → Value → Prop}
    (binds : store.Binds property)
    (implies : ∀ name value, property name value → weaker name value) :
    store.Binds weaker :=
  fun frame content name value found bound =>
    implies name value (binds frame content name value found bound)

theorem of_frames_eq
    {after : Store}
    (binds : store.Binds property)
    (same : after.frames = store.frames) :
    after.Binds property := by
  intro frame content name value found
  rw [frame?, same] at found
  exact binds frame content name value found

theorem addFrame
    (binds : store.Binds property)
    {content : Frame}
    (good : ∀ name value, content.bindings.get? name = some value → property name value) :
    (store.addFrame content).Binds property := by
  intro frame other name value found bound
  rw [frame?_addFrame] at found
  split at found
  · cases found
    exact good name value bound
  · exact binds frame other name value found bound

theorem define
    (binds : store.Binds property)
    (frame : FrameId)
    (name : String)
    {value : Value}
    (good : property name value) :
    (store.define frame name value).Binds property := by
  intro other content asked result found bound
  rw [frame?_define] at found
  split at found
  · obtain ⟨old, oldFound, rfl⟩ := Option.map_eq_some_iff.1 found
    rw [Bindings.get?_define] at bound
    split at bound
    · next same =>
        cases bound
        exact same ▸ good
    · exact binds other old asked result oldFound bound
  · exact binds other content asked result found bound

/-- What is looked up has been bound somewhere. -/
theorem lookup?
    (binds : store.Binds property)
    {frame : FrameId}
    {name : String}
    {value : Value}
    (found : store.lookup? frame name = some value) :
    property name value := by
  fun_induction Store.lookup? store frame name with
  | case1 => cases found
  | case2 frame content known result bound =>
      cases found
      exact binds frame content name value known bound
  | case3 => cases found
  | case4 frame content known unbound parent hasParent older ih => exact ih found
  | case5 => cases found

end Binds

/-- The frame has been made, and it is no root. -/
def HasParent (store : Store) (frame : FrameId) : Prop :=
  ∃ content parent, store.frame? frame = some content ∧ content.parent = some parent

namespace HasParent

variable
  {store after : Store}
  {frame : FrameId}

theorem of_keeps
    (hasParent : store.HasParent frame)
    (keeps : store.Keeps after) :
    after.HasParent frame := by
  obtain ⟨content, parent, found, child⟩ := hasParent
  exact ⟨content, parent, keeps frame content found, child⟩

theorem define
    (hasParent : store.HasParent frame)
    (target : FrameId)
    (name : String)
    (value : Value) :
    (store.define target name value).HasParent frame := by
  obtain ⟨content, parent, found, child⟩ := hasParent
  by_cases same : frame = target
  · obtain rfl := same
    exact ⟨_, parent, frame?_define_self found name value, child⟩
  · refine ⟨content, parent, ?_, child⟩
    rw [frame?_define, if_neg same, found]

theorem addFrame
    (store : Store)
    (bindings : Bindings)
    (parent : FrameId) :
    (store.addFrame ⟨bindings, some parent⟩).HasParent store.nextFrame :=
  ⟨_, parent, by rw [frame?_addFrame, if_pos rfl], rfl⟩

end HasParent

namespace ChangesOnly

theorem mono
    {frame : FrameId}
    {names more : String → Prop}
    {before after : Store}
    (changes : before.ChangesOnly frame names after)
    (wider : ∀ name, names name → more name) :
    before.ChangesOnly frame more after where
  others := changes.others
  own := by
    intro content found
    obtain ⟨changed, foundChanged, grows⟩ := changes.own content found
    exact ⟨changed, foundChanged, grows.mono wider⟩

theorem define
    {names : String → Prop}
    {name : String}
    (isName : names name)
    (store : Store)
    (frame : FrameId)
    (value : Value) :
    store.ChangesOnly frame names (store.define frame name value) where
  others := by
    intro other content different found
    rw [frame?_define, if_neg different, found]
  own := by
    intro content found
    exact ⟨_, frame?_define_self found name value, .define isName content value⟩

/-- Changes in a frame that was not there yet keep the frames that were. -/
theorem keeps_of_fresh
    {frame : FrameId}
    {names : String → Prop}
    {before between after : Store}
    (fresh : before.frame? frame = none)
    (opened : before.Keeps between)
    (changes : between.ChangesOnly frame names after) :
    before.Keeps after := by
  intro other content found
  apply changes.others other content
  · rintro rfl
    rw [fresh] at found
    cases found
  · exact opened other content found

end ChangesOnly

end Store

namespace Action

theorem outcome_map
    {First Second : Type}
    (change : First → Second)
    (action : Action First)
    (store : Store) :
    (change <$> action).outcome store =
      (action.outcome store).map fun ending => (ending.1.map change, ending.2) := by
  rw [map_eq_pure_bind, outcome_bind]
  cases action.outcome store with
  | none => rfl
  | some ending =>
      rcases ending with ⟨result, after⟩
      cases result <;> rfl

/-- Two actions in a row end where the first one fails, or where the second one ends. -/
theorem outcome_bind_cases
    {First Second : Type}
    {action : Action First}
    {next : First → Action Second}
    {store after : Store}
    {outcome : Except Fault Second}
    (ends : (action >>= next).outcome store = some (outcome, after)) :
    (∃ fault, outcome = .error fault ∧ action.outcome store = some (.error fault, after)) ∨
      ∃ value between,
        action.outcome store = some (.ok value, between) ∧
          (next value).outcome between = some (outcome, after) := by
  rw [outcome_bind] at ends
  split at ends
  · cases ends
  · next fault between early =>
      cases ends
      exact Or.inl ⟨fault, rfl, early⟩
  · next value between early => exact Or.inr ⟨value, between, early, ends⟩

/-- Two actions in a row give a result only if the first one does, and then the second one. -/
theorem exists_of_outcome_bind_eq_ok
    {First Second : Type}
    {action : Action First}
    {next : First → Action Second}
    {store after : Store}
    {result : Second}
    (ends : (action >>= next).outcome store = some (.ok result, after)) :
    ∃ value between,
      action.outcome store = some (.ok value, between) ∧
        (next value).outcome between = some (.ok result, after) := by
  rcases outcome_bind_cases ends with ⟨fault, same, -⟩ | later
  · cases same
  · exact later

/-- Whatever store an action leaves, with a result or with a fault, is so related to the first. -/
def Respects
    {Result : Type}
    (relation : Store → Store → Prop)
    (action : Action Result) :
    Prop :=
  ∀ store outcome after,
    action.outcome store = some (outcome, after) → relation store after

theorem respects_lookup
    (frame : FrameId)
    (name : String) :
    (lookup frame name).Respects Store.Keeps := by
  intro store outcome after ends
  rw [outcome_lookup] at ends
  split at ends
  · cases ends
    exact Store.keeps_of_frames_eq rfl
  · cases ends
    exact Store.keeps_of_frames_eq rfl

theorem respects_makeClosure
    (parameters : Parameters)
    (body : Value)
    (home : FrameId) :
    (makeClosure parameters body home).Respects Store.Keeps := by
  intro store outcome after ends
  rw [outcome_makeClosure] at ends
  cases ends
  exact Store.keeps_of_frames_eq rfl

theorem respects_write (text : String) :
    (write text).Respects Store.Keeps := by
  intro store outcome after ends
  rw [outcome_write] at ends
  cases ends
  exact Store.keeps_of_frames_eq rfl

end Action

end MiniLisp
