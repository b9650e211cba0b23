import MiniLisp.Proofs.Eval.Mirror

/-!
# Sessions that share a store

This module supplies what can be done in a store that several sessions share, and the
histories of such a store.

A request binds a name, opens a frame, evaluates a form or looks a name up
(`Request`).  It is addressed to a frame of the tree below the root frame of one
session.  The values that come with it contain functions of this tree only: their
frames are of the tree, and they were made by requests in the tree or with its root.
So the shared store records in which tree each function was made (`SharedStore`).

A history is a sequence of requests of any sessions in any order, with the reply or
the fault and the text that each one gave (`SharedStore.History`).  Requests that
fail are part of it.
-/

namespace MiniLisp

/-! ## Trees of frames -/

namespace Store

/-- The root of the tree of a frame. -/
def root? (store : Store) (frame : FrameId) : Option FrameId :=
  match store.frame? frame with
  | none => none
  | some content =>
    match content.parent with
    | none => some frame
    | some parent =>
      if parent < frame then
        store.root? parent
      else
        none
termination_by frame

section

variable
  {store : Store}
  {frame : FrameId}
  {content : Frame}

theorem root?_of_root
    (found : store.frame? frame = some content)
    (isRoot : content.parent = none) :
    store.root? frame = some frame := by
  rw [root?, found]
  simp only [isRoot]

theorem root?_of_child
    {parent : FrameId}
    (found : store.frame? frame = some content)
    (child : content.parent = some parent)
    (older : parent < frame) :
    store.root? frame = store.root? parent := by
  rw [root?, found]
  simp only [child, if_pos older]

theorem lt_nextFrame_of_root?
    {root : FrameId}
    (inTree : store.root? frame = some root) :
    frame < store.nextFrame := by
  rw [root?] at inTree
  cases found : store.frame? frame with
  | none =>
      rw [found] at inTree
      cases inTree
  | some content => exact lt_nextFrame_of_frame? found

end

/-- A root is older than all other frames of its tree. -/
theorem root?_le
    {store : Store}
    {frame root : FrameId}
    (inTree : store.root? frame = some root) :
    root ≤ frame := by
  fun_induction Store.root? store frame with
  | case1 => cases inTree
  | case2 =>
      cases inTree
      exact Nat.le_refl _
  | case3 frame content found parent child older ih =>
      exact Nat.le_trans (ih inTree) (Nat.le_of_lt older)
  | case4 => cases inTree

/-- Every frame is still there, with the parent that it had. -/
def KeepsParents (before after : Store) : Prop :=
  ∀ frame content, before.frame? frame = some content →
    ∃ changed, after.frame? frame = some changed ∧ changed.parent = content.parent

theorem ChangesOnly.keepsParents
    {frame : FrameId}
    {names : String → Prop}
    {before after : Store}
    (changes : before.ChangesOnly frame names after) :
    before.KeepsParents after := by
  intro other content found
  by_cases same : other = frame
  · obtain rfl := same
    obtain ⟨changed, foundChanged, grows⟩ := changes.own content found
    exact ⟨changed, foundChanged, grows.parent⟩
  · exact ⟨content, changes.others other content same found, rfl⟩

/-- Frames stay in their trees. -/
theorem KeepsParents.root?_eq
    {before after : Store}
    (keeps : before.KeepsParents after)
    {frame : FrameId}
    (made : frame < before.nextFrame) :
    after.root? frame = before.root? frame := by
  induction frame using Nat.strong_induction_on with
  | h frame ih =>
      obtain ⟨content, found⟩ := exists_frame?_of_lt made
      obtain ⟨changed, foundChanged, sameParent⟩ := keeps frame content found
      rw [root?, root?, found, foundChanged]
      simp only [sameParent]
      cases content.parent with
      | none => rfl
      | some parent =>
          dsimp only
          split
          · next older => exact ih parent older (Nat.lt_trans older made)
          · rfl

end Store

/-! ## Requests -/

/-- What can be done in a frame. -/
inductive Request where
  | define (frame : FrameId) (name : String) (value : Value)
  | child (parent : FrameId)
  | eval (depth : Nat) (frame : FrameId) (form : Value)
  | lookup (frame : FrameId) (name : String)

/-- What is given for a request that does not fail. -/
inductive Reply where
  | defined
  | opened (frame : FrameId)
  | given (value : Value)

namespace Reply

/-- The reply with other values and frames. -/
def map (value : Value → Value) (frame : FrameId → FrameId) : Reply → Reply
  | defined => defined
  | opened other => opened (frame other)
  | given other => given (value other)

/-- The values in a reply. -/
def values : Reply → List Value
  | given value => [value]
  | _ => []

/-- The frames in a reply. -/
def frames : Reply → List FrameId
  | opened frame => [frame]
  | _ => []

end Reply

namespace Request

/-- The frame that a request is addressed to. -/
def frame : Request → FrameId
  | define frame _ _ => frame
  | child parent => parent
  | eval _ frame _ => frame
  | lookup frame _ => frame

/-- The values that come with a request. -/
def values : Request → List Value
  | define _ _ value => [value]
  | eval _ _ form => [form]
  | _ => []

/-- The request with other values and frames. -/
def map (value : Value → Value) (frame : FrameId → FrameId) : Request → Request
  | define other name bound => define (frame other) name (value bound)
  | child parent => child (frame parent)
  | eval depth other form => eval depth (frame other) (value form)
  | lookup other name => lookup (frame other) name

/-- The action that a request stands for. -/
def action : Request → Action Reply
  | define frame name value => (fun _ => .defined) <$> Action.define frame name value
  | child parent => .opened <$> Action.openFrame parent []
  | eval depth frame form => .given <$> MiniLisp.eval depth frame form
  | lookup frame name => .given <$> Action.lookup frame name

end Request

/-- A request that has been performed for a session. -/
structure Event where
  session : Session
  request : Request
  outcome : Except Fault Reply
  /-- The text written by the request. -/
  text : String

namespace Event

/-- The event with other values and frames. -/
def map (value : Value → Value) (frame : FrameId → FrameId) (event : Event) : Event :=
  { event with
    request := event.request.map value frame
    outcome := event.outcome.map (Reply.map value frame) }

/-- The event with other numbers for functions and frames. -/
abbrev renumber (function : Nat → Nat) (frame : FrameId → FrameId) (event : Event) : Event :=
  event.map (Value.renumber function frame) frame

end Event

/-! ### Events under other numbers -/

section

variable
  {value value' : Value → Value}
  {frame frame' : FrameId → FrameId}

theorem Reply.map_congr
    {reply : Reply}
    (values : ∀ other ∈ reply.values, value other = value' other)
    (frames : ∀ other ∈ reply.frames, frame other = frame' other) :
    reply.map value frame = reply.map value' frame' := by
  cases reply with
  | defined => rfl
  | opened other => exact congrArg opened (frames other List.mem_cons_self)
  | given other => exact congrArg given (values other List.mem_cons_self)

theorem Request.map_congr
    {request : Request}
    (values : ∀ other ∈ request.values, value other = value' other)
    (sameFrame : frame request.frame = frame' request.frame) :
    request.map value frame = request.map value' frame' := by
  cases request with
  | define other name bound =>
      exact congrArg₂ (define · name ·) sameFrame (values bound List.mem_cons_self)
  | child parent => exact congrArg child sameFrame
  | eval depth other form =>
      exact congrArg₂ (eval depth) sameFrame (values form List.mem_cons_self)
  | lookup other name => exact congrArg (lookup · name) sameFrame

theorem Request.map_map (request : Request) :
    (request.map value frame).map value' frame' =
      request.map (value' ∘ value) (frame' ∘ frame) := by
  cases request <;> rfl

theorem Reply.map_map (reply : Reply) :
    (reply.map value frame).map value' frame' =
      reply.map (value' ∘ value) (frame' ∘ frame) := by
  cases reply <;> rfl

theorem Event.map_map (event : Event) :
    (event.map value frame).map value' frame' =
      event.map (value' ∘ value) (frame' ∘ frame) := by
  obtain ⟨session, request, outcome, text⟩ := event
  cases outcome with
  | error fault => simp only [map, Except.map, Request.map_map]
  | ok reply => simp only [map, Except.map, Request.map_map, Reply.map_map]

end

/-- All frames and functions that the event names have been made in the store. -/
structure Event.IsWithin (event : Event) (store : Store) : Prop where
  frame : event.request.frame < store.nextFrame
  values : ∀ value ∈ event.request.values, value.Within store
  reply :
    ∀ reply, event.outcome = .ok reply →
      (∀ value ∈ reply.values, value.Within store) ∧
        ∀ frame ∈ reply.frames, frame < store.nextFrame

theorem Event.IsWithin.mono
    {event : Event}
    {before after : Store}
    (within : event.IsWithin before)
    (precedes : before.Precedes after) :
    event.IsWithin after where
  frame := Nat.lt_of_lt_of_le within.frame precedes.frames
  values := fun value member => (within.values value member).mono precedes
  reply := by
    intro reply given
    obtain ⟨values, frames⟩ := within.reply reply given
    constructor
    · exact fun value member => (values value member).mono precedes
    · exact fun frame member => Nat.lt_of_lt_of_le (frames frame member) precedes.frames

/-- Numbers that agree on all that has been made agree on an event. -/
theorem Event.IsWithin.map_congr
    {event : Event}
    {store : Store}
    (within : event.IsWithin store)
    {value value' : Value → Value}
    {frame frame' : FrameId → FrameId}
    (values : ∀ other : Value, other.Within store → value other = value' other)
    (frames : ∀ other, other < store.nextFrame → frame other = frame' other) :
    event.map value frame = event.map value' frame' := by
  obtain ⟨session, request, outcome, text⟩ := event
  have sameRequest : request.map value frame = request.map value' frame' :=
    Request.map_congr (fun other member => values other (within.values other member))
      (frames _ within.frame)
  cases outcome with
  | error fault => simp only [map, Except.map, sameRequest]
  | ok reply =>
      obtain ⟨valuesWithin, framesMade⟩ := within.reply reply rfl
      have sameReply : reply.map value frame = reply.map value' frame' :=
        Reply.map_congr (fun other member => values other (valuesWithin other member))
          fun other member => frames other (framesMade other member)
      simp only [map, Except.map, sameRequest, sameReply]

/-- The event of a request for a session, and the store after it. -/
def Store.perform
    (store : Store)
    (session : Session)
    (request : Request) :
    Option (Event × Store) :=
  (request.action.outcome store.forgetOutput).map fun ending =>
    (⟨session, request, ending.1, ending.2.output⟩, ending.2)

/-! ## Histories -/

/-- A store, and the root of the tree in which each of its functions was made. -/
structure SharedStore where
  store : Store
  makers : List FrameId

namespace SharedStore

/-- The shared store after what a session has done. -/
def proceed (shared : SharedStore) (session : Session) (after : Store) : SharedStore where
  store := after
  makers :=
    shared.makers ++ List.replicate (after.functions - shared.store.functions) session.root

/-- The shared store with one more session. -/
def enter (shared : SharedStore) : SharedStore :=
  shared.proceed (Session.next shared.store) (Session.enter shared.store)

/-- The shared store in which a number of sessions have been entered. -/
def start : Nat → SharedStore
  | 0 => ⟨Store.empty, []⟩
  | count + 1 => (start count).enter

/-- All functions in a value were made in the tree of a root and have their frames there. -/
abbrev Owns (shared : SharedStore) (root : FrameId) (value : Value) : Prop :=
  value.NumbersIn (fun identity => shared.makers[identity]? = some root)
    (fun home => shared.store.root? home = some root)

/-- The request is addressed to the tree of the session, with values of this tree. -/
structure Admits (shared : SharedStore) (session : Session) (request : Request) : Prop where
  addressed : shared.store.root? request.frame = some session.root
  owned : ∀ value ∈ request.values, shared.Owns session.root value

/-- A request of a session is performed. -/
inductive Step (before : SharedStore) : Event → SharedStore → Prop
  | perform
      {session : Session}
      {request : Request}
      {event : Event}
      {after : Store}
      (admits : before.Admits session request)
      (performed : before.store.perform session request = some (event, after)) :
      Step before event (before.proceed session after)

/-- Requests of any sessions are performed in any order, the last event being the latest. -/
inductive History (start : SharedStore) : List Event → SharedStore → Prop
  | nil : History start [] start
  | concat
      {events : List Event}
      {between : SharedStore}
      {event : Event}
      {after : SharedStore}
      (history : History start events between)
      (step : between.Step event after) :
      History start (events ++ [event]) after

/--
The tree of a root is the same in two shared stores, but that functions and frames have
other numbers; both are numbered in the order in which they were made.
-/
structure SameTree
    (root : FrameId)
    (function : Nat → Nat)
    (frame : FrameId → FrameId)
    (first second : SharedStore) :
    Prop where
  root_eq : frame root = root
  functions :
    ∀ identity,
      second.makers[identity]? = some root ↔
        ∃ made, first.makers[made]? = some root ∧ function made = identity
  functions_lt :
    ∀ {earlier later},
      first.makers[earlier]? = some root → first.makers[later]? = some root →
        earlier < later → function earlier < function later
  frames :
    ∀ home,
      second.store.root? home = some root ↔
        ∃ made, first.store.root? made = some root ∧ frame made = home
  frames_lt :
    ∀ {earlier later},
      first.store.root? earlier = some root → first.store.root? later = some root →
        earlier < later → frame earlier < frame later
  content :
    ∀ {home content},
      first.store.root? home = some root → first.store.frame? home = some content →
        ∃ other, second.store.frame? (frame home) = some other ∧
          other.parent = content.parent.map frame ∧
            ∀ name,
              other.bindings.get? name =
                (content.bindings.get? name).map (Value.renumber function frame)

end SharedStore

end MiniLisp
