import MiniLisp.Fault
import MiniLisp.Store

/-!
# Actions

This module supplies the steps of evaluation as actions on the store.  An
action gives a result or a fault, together with the store that it leaves: what
was done before a fault stays done.  An action may also give nothing at all,
which means that the bound on the depth of evaluation was reached.
-/

namespace MiniLisp

/-- A step of evaluation. -/
abbrev Action (Result : Type) := ExceptT Fault (StateT Store Option) Result

namespace Action

/-- The outcome of an action in a store, and the store that it leaves. -/
def outcome {Result : Type} (action : Action Result) (store : Store) :
    Option (Except Fault Result × Store) :=
  StateT.run (ExceptT.run action) store

/-- The action that gives nothing, because evaluation went too deep. -/
def tooDeep {Result : Type} : Action Result :=
  fun _ => none

@[simp]
theorem outcome_tooDeep
    {Result : Type}
    (store : Store) :
    outcome (tooDeep : Action Result) store = none := rfl

@[simp]
theorem outcome_pure
    {Result : Type}
    (result : Result)
    (store : Store) :
    outcome (pure result) store = some (.ok result, store) := rfl

/-- A fault and a lack of depth both skip all that follows. -/
theorem outcome_bind
    {First Second : Type}
    (action : Action First)
    (next : First → Action Second)
    (store : Store) :
    outcome (action >>= next) store =
      match outcome action store with
      | none => none
      | some (.error fault, after) => some (.error fault, after)
      | some (.ok result, after) => outcome (next result) after := by
  change
    (outcome action store).bind (fun pair => ExceptT.bindCont next pair.1 pair.2) = _
  cases outcome action store with
  | none => rfl
  | some pair =>
    obtain ⟨result, after⟩ := pair
    cases result <;> rfl

/-- The action that fails. -/
def fail {Result : Type} (fault : Fault) : Action Result :=
  throw fault

@[simp]
theorem outcome_fail
    {Result : Type}
    (fault : Fault)
    (store : Store) :
    outcome (fail fault : Action Result) store = some (.error fault, store) := rfl

/-- The action that leaves the store alone and gives a result or a fault. -/
def ofExcept {Result : Type} : Except Fault Result → Action Result
  | .ok result => pure result
  | .error fault => fail fault

@[simp]
theorem outcome_ofExcept
    {Result : Type}
    (result : Except Fault Result)
    (store : Store) :
    outcome (ofExcept result) store = some (result, store) := by
  cases result <;> rfl

/-- The value of a name in a frame. -/
def lookup (frame : FrameId) (name : String) : Action Value := do
  match (← get).lookup? frame name with
  | some value => pure value
  | none => fail (.unbound name)

@[simp]
theorem outcome_lookup
    (frame : FrameId)
    (name : String)
    (store : Store) :
    outcome (lookup frame name) store =
      match store.lookup? frame name with
      | some value => some (.ok value, store)
      | none => some (.error (.unbound name), store) := by
  change
    outcome
        (match store.lookup? frame name with
        | some value => pure value
        | none => fail (.unbound name))
        store = _
  cases store.lookup? frame name <;> rfl

/-- The binding of a name in a frame. -/
def define (frame : FrameId) (name : String) (value : Value) : Action Unit :=
  modify fun store => store.define frame name value

@[simp]
theorem outcome_define
    (frame : FrameId)
    (name : String)
    (value : Value)
    (store : Store) :
    outcome (define frame name value) store =
      some (.ok (), store.define frame name value) := rfl

/-- A new frame with bindings and a parent. -/
def openFrame (parent : FrameId) (bindings : Bindings) : Action FrameId := do
  let frame := (← get).nextFrame
  modify fun store => store.addFrame ⟨bindings, some parent⟩
  pure frame

@[simp]
theorem outcome_openFrame
    (parent : FrameId)
    (bindings : Bindings)
    (store : Store) :
    outcome (openFrame parent bindings) store =
      some (.ok store.nextFrame, store.addFrame ⟨bindings, some parent⟩) := rfl

/-- A new function, unlike all others. -/
def makeClosure
    (parameters : Parameters)
    (body : Value)
    (home : FrameId) :
    Action Value := do
  let identity := (← get).functions
  modify fun store => store.addFunction
  pure (.closure identity parameters body home)

@[simp]
theorem outcome_makeClosure
    (parameters : Parameters)
    (body : Value)
    (home : FrameId)
    (store : Store) :
    outcome (makeClosure parameters body home) store =
      some
        (.ok (.closure store.functions parameters body home),
          store.addFunction) := rfl

/-- The writing of text. -/
def write (text : String) : Action Unit :=
  modify fun store => store.write text

@[simp]
theorem outcome_write
    (text : String)
    (store : Store) :
    outcome (write text) store = some (.ok (), store.write text) := rfl

end Action

end MiniLisp
