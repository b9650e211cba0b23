import MiniLisp.Value

/-!
# Frames and the store

This module supplies the state of evaluation.  A frame binds names to values
and may have a parent, in which names are looked up that the frame itself does
not bind.  The store holds all frames ever made, the number of functions ever
made, and the text written so far.

Frames are only ever added, and a parent is always an older frame, which ends
every walk along parents.
-/

namespace MiniLisp

/-- Names with their values, each name at most once. -/
abbrev Bindings := List (String × Value)

namespace Bindings

/-- The bindings with a name bound to a value, in place of its older value. -/
def define (name : String) (value : Value) : Bindings → Bindings
  | [] => [(name, value)]
  | (other, old) :: rest =>
    if other = name then
      (name, value) :: rest
    else
      (other, old) :: define name value rest

/-- The value of a name. -/
def get? (bindings : Bindings) (name : String) : Option Value :=
  bindings.lookup name

@[simp]
theorem get?_nil (name : String) : get? [] name = none := rfl

theorem get?_cons
    (other : String)
    (value : Value)
    (bindings : Bindings)
    (name : String) :
    get? ((other, value) :: bindings) name =
      if name = other then some value else get? bindings name := by
  by_cases same : name = other
  · simp [get?, same]
  · simp [get?, List.lookup_cons, same, beq_eq_false_iff_ne.2 same]

/-- A definition changes the value of its own name alone. -/
theorem get?_define
    (bindings : Bindings)
    (name : String)
    (value : Value)
    (other : String) :
    get? (define name value bindings) other =
      if other = name then some value else get? bindings other := by
  induction bindings with
  | nil => simp [define, get?_cons]
  | cons binding bindings ih =>
    obtain ⟨first, old⟩ := binding
    by_cases same : first = name
    · subst same
      by_cases asked : other = first <;> simp [define, get?_cons, asked]
    · by_cases asked : other = first
      · subst asked
        simp [define, get?_cons, same]
      · simp [define, get?_cons, same, asked, ih]

/-- The bindings that result from defining pairs one after the other. -/
def ofPairs (pairs : List (String × Value)) : Bindings :=
  pairs.foldl (fun bindings pair => define pair.1 pair.2 bindings) []

end Bindings

/-- Bindings, and the frame that is searched after them. -/
structure Frame where
  bindings : Bindings
  parent : Option FrameId
deriving Inhabited

/-- The state of evaluation. -/
structure Store where
  /-- All frames ever made, oldest first. -/
  frames : Array Frame
  /-- How many functions were ever made. -/
  functions : Nat
  /-- The text written so far. -/
  output : String
deriving Inhabited

namespace Store

/-- The store before anything was made. -/
def empty : Store := ⟨#[], 0, ""⟩

/-- The frame with an index. -/
def frame? (store : Store) (frame : FrameId) : Option Frame :=
  store.frames[frame]?

/-- The index of the next frame. -/
def nextFrame (store : Store) : FrameId := store.frames.size

/-- The store with one more frame. -/
def addFrame (store : Store) (frame : Frame) : Store :=
  { store with frames := store.frames.push frame }

/-- A new frame stands at the next index and changes no other frame. -/
theorem frame?_addFrame
    (store : Store)
    (content : Frame)
    (frame : FrameId) :
    (store.addFrame content).frame? frame =
      if frame = store.nextFrame then some content else store.frame? frame := by
  exact Array.getElem?_push

/-- The store with a name bound in a frame. -/
def define
    (store : Store)
    (frame : FrameId)
    (name : String)
    (value : Value) :
    Store :=
  { store with
    frames := store.frames.modify frame fun content =>
      { content with bindings := content.bindings.define name value } }

/-- A definition changes the bindings of its own frame alone. -/
theorem frame?_define
    (store : Store)
    (target : FrameId)
    (name : String)
    (value : Value)
    (frame : FrameId) :
    (store.define target name value).frame? frame =
      if frame = target then
        (store.frame? frame).map fun content =>
          { content with bindings := content.bindings.define name value }
      else
        store.frame? frame := by
  by_cases same : frame = target
  · subst same
    simp [frame?, define, Array.getElem?_modify]
  · simp [frame?, define, Array.getElem?_modify, same, Ne.symm same]

/-- The store with one more function made. -/
def addFunction (store : Store) : Store :=
  { store with functions := store.functions + 1 }

/-- The store with more text written. -/
def write (store : Store) (text : String) : Store :=
  { store with output := store.output ++ text }

/-- The store as if no text had been written. -/
def forgetOutput (store : Store) : Store :=
  { store with output := "" }

/-- The value of a name in a frame or the nearest of its ancestors. -/
def lookup? (store : Store) (frame : FrameId) (name : String) : Option Value :=
  match store.frame? frame with
  | none => none
  | some content =>
    match content.bindings.get? name with
    | some value => some value
    | none =>
      match content.parent with
      | none => none
      | some parent =>
        if parent < frame then
          store.lookup? parent name
        else
          none
termination_by frame

/-- A name has a value in the frame or in one of its ancestors. -/
def isDefined (store : Store) (frame : FrameId) (name : String) : Bool :=
  (store.lookup? frame name).isSome

/-- A name has a value in the frame itself. -/
def isLocal (store : Store) (frame : FrameId) (name : String) : Bool :=
  match store.frame? frame with
  | none => false
  | some content => (content.bindings.get? name).isSome

/-- The store with all builtin functions made anew and bound in a frame. -/
def defineBuiltins (store : Store) (frame : FrameId) : Store :=
  Builtin.all.foldl
    (fun store (builtin : Builtin) =>
      (store.define frame builtin.name
        (.native store.functions builtin)).addFunction)
    store

end Store

end MiniLisp
