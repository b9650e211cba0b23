import MiniLisp.Proofs.Eval.Hosting

/-!
# Sessions do not see each other

This module shows that the requests of one session in a shared store have the same
replies, faults and texts, and leave the same bindings, as if no other session had made
any request (`sessions_isolated`).
-/

namespace MiniLisp

/-! ## Sessions that are entered -/

/-- What is made with a session: its root frame and its builtin functions. -/
theorem Session.made_enter (store : Store) :
    (enter store).functions = store.functions + Builtin.all.length ∧
      (enter store).nextFrame = store.nextFrame + 1 := by
  constructor
  · rw [enter, Store.defineBuiltins_eq_foldl]
    show _ = (store.addFrame ⟨[], none⟩).functions + _
    generalize store.addFrame ⟨[], none⟩ = opened
    induction Builtin.all generalizing opened with
    | nil => rfl
    | cons builtin builtins ih =>
        refine (ih (opened.defineBuiltin store.nextFrame builtin)).trans ?_
        rw [List.length_cons, Nat.add_comm builtins.length, ← Nat.add_assoc]
        rfl
  · rw [enter, Store.nextFrame_defineBuiltins, Store.nextFrame_addFrame]

/-- The frames that were there are as they were when a session is entered. -/
theorem Session.keeps_enter (store : Store) :
    store.Keeps (enter store) := by
  have fresh : store.frame? store.nextFrame = none := Array.getElem?_size
  have changes :
      (store.addFrame ⟨[], none⟩).ChangesOnly store.nextFrame (fun _ => True) (enter store) := by
    apply Store.defineBuiltins_induction (Std.Refl.refl _)
    intro later builtin changes
    have defined :
        later.ChangesOnly store.nextFrame (fun _ => True)
          (later.define store.nextFrame builtin.name (.native later.functions builtin)) :=
      .define trivial later store.nextFrame _
    have made :
        later.ChangesOnly store.nextFrame (fun _ => True)
          (later.defineBuiltin store.nextFrame builtin) :=
      ⟨defined.others, defined.own⟩
    exact IsTrans.trans _ _ _ changes made
  exact changes.keeps_of_fresh fresh (Store.keeps_addFrame store ⟨[], none⟩)

theorem Session.precedes_enter (store : Store) :
    store.Precedes (enter store) where
  functions := by
    rw [(made_enter store).1]
    exact Nat.le_add_right _ _
  frames := by
    rw [(made_enter store).2]
    exact Nat.le_add_right _ _

theorem Store.Keeps.keepsParents
    {before after : Store}
    (keeps : before.Keeps after) :
    before.KeepsParents after :=
  fun frame content found => ⟨content, keeps frame content found, rfl⟩

/-- The numbers that follow those of a store. -/
def Numbering.following (store : Store) : Numbering where
  function := (store.functions + ·)
  frame := (store.nextFrame + ·)
  function_strictMono := fun _ _ below => Nat.add_lt_add_left below _
  frame_strictMono := fun _ _ below => Nat.add_lt_add_left below _

namespace SharedStore

/-- A number of sessions have been entered, and each of them has a tree of its own. -/
structure HasEntered (shared : SharedStore) (count : Nat) : Prop where
  nextFrame : shared.store.nextFrame = count
  recorded : shared.makers.length = shared.store.functions
  makers : ∀ maker ∈ shared.makers, maker < count
  hosts :
    ∀ root, root < count → ∃ numbering, shared.Hosts root numbering (Session.enter .empty)

/-- Before a session is entered, there is nothing in its tree. -/
theorem HasEntered.hosts_empty
    {shared : SharedStore}
    {count : Nat}
    (entered : shared.HasEntered count) :
    shared.Hosts count (.following shared.store) Store.empty where
  holds := .empty _
  mirrors :=
    { function_next := fun made => congrArg (shared.store.functions + ·) (Nat.zero_add made)
      frame_next := fun made => congrArg (shared.store.nextFrame + ·) (Nat.zero_add made)
      content := fun found => by cases found }
  root_eq := entered.nextFrame
  single := fun frame made => absurd made (Nat.not_lt_zero frame)
  frames := by
    intro frame
    constructor
    · intro inTree
      have made := Store.lt_nextFrame_of_root? inTree
      rw [entered.nextFrame] at made
      exact absurd (Store.root?_le inTree) (Nat.not_le.2 made)
    · rintro ⟨made, isMade, -⟩
      exact absurd isMade (Nat.not_lt_zero made)
  recorded := entered.recorded
  functions := by
    intro identity
    constructor
    · intro isMaker
      exact absurd (entered.makers count (List.mem_of_getElem? isMaker)) (Nat.lt_irrefl count)
    · rintro ⟨made, isMade, -⟩
      exact absurd isMade (Nat.not_lt_zero made)

theorem HasEntered.hosts_next
    {shared : SharedStore}
    {count : Nat}
    (entered : shared.HasEntered count) :
    shared.enter.Hosts count (.following shared.store) (Session.enter .empty) := by
  have hosts := entered.hosts_empty
  rw [← entered.nextFrame] at hosts ⊢
  change shared.Hosts (Session.next shared.store).root _ _ at hosts
  have mirrored :
      Store.Mirrored (.following shared.store) .empty shared.store (Session.enter .empty)
        (Session.enter shared.store) := by
    refine ⟨hosts.mirrors.enter, ⟨Builtin.all.length, 1, ?_, ?_, ?_, ?_⟩, ?_⟩
    · exact (Session.made_enter .empty).1
    · exact (Session.made_enter shared.store).1
    · exact (Session.made_enter .empty).2
    · exact (Session.made_enter shared.store).2
    · intro frame _ made notRoot
      rw [(Session.made_enter .empty).2] at made
      exact absurd (Nat.lt_one_iff.1 made) notRoot
  exact hosts.proceed Store.Reachable.empty.enter.holds mirrored
    (Session.keeps_enter .empty).keepsParents (Session.keeps_enter shared.store).keepsParents

theorem HasEntered.enter
    {shared : SharedStore}
    {count : Nat}
    (entered : shared.HasEntered count) :
    shared.enter.HasEntered (count + 1) where
  nextFrame := (Session.made_enter shared.store).2.trans (congrArg (· + 1) entered.nextFrame)
  recorded := entered.hosts_next.recorded
  makers := by
    intro maker member
    rcases List.mem_append.1 member with old | isNew
    · exact Nat.lt_succ_of_lt (entered.makers maker old)
    · rw [List.eq_of_mem_replicate isNew]
      exact Nat.lt_succ_of_le (Nat.le_of_eq entered.nextFrame)
  hosts := by
    intro root below
    rcases Nat.lt_succ_iff_lt_or_eq.1 below with old | rfl
    · obtain ⟨numbering, hosts⟩ := entered.hosts root old
      have inTree := (hosts.frames _).2 ⟨0, by decide +kernel, rfl⟩
      have keeps := Session.keeps_enter shared.store
      refine ⟨_, hosts.elsewhere inTree ?_ (Session.precedes_enter shared.store)
        keeps.keepsParents (fun frame content _ found => keeps frame content found) ?_⟩
      · rw [Session.next, entered.nextFrame]
        exact Nat.ne_of_gt old
      · intro frame isNew inOld
        have made := Store.lt_nextFrame_of_root? inOld
        have ofNext := entered.hosts_empty.root?_of_new entered.hosts_next isNew made
        exact Nat.ne_of_lt old (Option.some.inj (inOld.symm.trans ofNext))
    · exact ⟨_, entered.hosts_next⟩

/-- In the beginning each session has a tree of its own. -/
theorem hasEntered_start (count : Nat) :
    (start count).HasEntered count := by
  induction count with
  | zero => exact ⟨rfl, rfl, nofun, nofun⟩
  | succ count ih => exact ih.enter

end SharedStore

/-! ## From one numbering to another -/

namespace Numbering

/-- The event with the numbers of the other store. -/
def event (numbering : Numbering) (event : Event) : Event :=
  event.map numbering.value numbering.frame

variable (early late : Numbering)

/-- The numbers of functions under one numbering, for those under another. -/
noncomputable def functionTo : Nat → Nat :=
  late.function ∘ Function.invFun early.function

/-- The numbers of frames under one numbering, for those under another. -/
noncomputable def frameTo : FrameId → FrameId :=
  late.frame ∘ Function.invFun early.frame

theorem functionTo_comp : early.functionTo late ∘ early.function = late.function := by
  funext identity
  exact congrArg late.function
    (Function.leftInverse_invFun early.function_strictMono.injective identity)

theorem frameTo_comp : early.frameTo late ∘ early.frame = late.frame := by
  funext home
  exact congrArg late.frame (Function.leftInverse_invFun early.frame_strictMono.injective home)

theorem renumber_value (value : Value) :
    (early.value value).renumber (early.functionTo late) (early.frameTo late) =
      late.value value := by
  rw [Numbering.value, Value.renumber_renumber, functionTo_comp, frameTo_comp]
  rfl

theorem renumber_event (event : Event) :
    (early.event event).renumber (early.functionTo late) (early.frameTo late) =
      late.event event := by
  rw [Event.renumber, Numbering.event, Event.map_map, frameTo_comp]
  exact congrArg (event.map · late.frame) (funext (early.renumber_value late))

end Numbering

namespace SharedStore

/-- Two stores that host one session have the same tree of it. -/
theorem Hosts.sameTree
    {root : FrameId}
    {early late : Numbering}
    {alone : Store}
    {first second : SharedStore}
    (hosts : first.Hosts root early alone)
    (hosts' : second.Hosts root late alone) :
    first.SameTree root (early.functionTo late) (early.frameTo late) second := by
  have functionTo := congrFun (early.functionTo_comp late)
  have frameTo := congrFun (early.frameTo_comp late)
  refine ⟨?_, ?_, ?_, ?_, ?_, ?_⟩
  · rw [← hosts.root_eq]
    exact (frameTo 0).trans (hosts'.root_eq.trans hosts.root_eq.symm)
  · intro identity
    rw [hosts'.functions]
    constructor
    · rintro ⟨made, isMade, rfl⟩
      exact ⟨early.function made, (hosts.functions _).2 ⟨made, isMade, rfl⟩, functionTo made⟩
    · rintro ⟨other, isMaker, rfl⟩
      obtain ⟨made, isMade, rfl⟩ := (hosts.functions other).1 isMaker
      exact ⟨made, isMade, (functionTo made).symm⟩
  · intro earlier later isMaker isMaker' below
    obtain ⟨made, -, rfl⟩ := (hosts.functions earlier).1 isMaker
    obtain ⟨made', -, rfl⟩ := (hosts.functions later).1 isMaker'
    have order := early.function_strictMono.lt_iff_lt.1 below
    exact (functionTo made).trans_lt
      ((late.function_strictMono order).trans_eq (functionTo made').symm)
  · intro home
    rw [hosts'.frames]
    constructor
    · rintro ⟨made, isMade, rfl⟩
      exact ⟨early.frame made, (hosts.frames _).2 ⟨made, isMade, rfl⟩, frameTo made⟩
    · rintro ⟨other, inTree, rfl⟩
      obtain ⟨made, isMade, rfl⟩ := (hosts.frames other).1 inTree
      exact ⟨made, isMade, (frameTo made).symm⟩
  · intro earlier later inTree inTree' below
    obtain ⟨made, -, rfl⟩ := (hosts.frames earlier).1 inTree
    obtain ⟨made', -, rfl⟩ := (hosts.frames later).1 inTree'
    have order := early.frame_strictMono.lt_iff_lt.1 below
    exact (frameTo made).trans_lt ((late.frame_strictMono order).trans_eq (frameTo made').symm)
  · intro home content inTree found
    obtain ⟨made, isMade, rfl⟩ := (hosts.frames home).1 inTree
    obtain ⟨original, foundAlone⟩ := Store.exists_frame?_of_lt isMade
    obtain ⟨known, isKnown, isNumbered⟩ := hosts.mirrors.content foundAlone
    cases found.symm.trans isKnown
    obtain ⟨other, found', isNumbered'⟩ := hosts'.mirrors.content foundAlone
    refine ⟨other, ?_, ?_, ?_⟩
    · exact (congrArg second.store.frame? (frameTo made)).trans found'
    · rw [isNumbered'.parent, isNumbered.parent, Option.map_map, early.frameTo_comp late]
    · intro name
      rw [isNumbered'.get?, isNumbered.get?, Option.map_map]
      exact congrArg (Option.map · (original.bindings.get? name))
        (funext fun value => (early.renumber_value late value).symm)

/-! ## Histories -/

/--
A history of one session alone.  Its events are those of the session in a history of all
sessions, but for numbers, and those of a history in which no other session does anything.
-/
structure Solo
    (start : SharedStore)
    (session : Session)
    (events : List Event)
    (last : SharedStore)
    (numbering : Numbering)
    (alone : Store)
    (solo : List Event) :
    Prop where
  hosts : last.Hosts session.root numbering alone
  own : ∀ event ∈ solo, event.session = session
  within : ∀ event ∈ solo, event.IsWithin alone
  filtered : events.filter (·.session = session) = solo.map numbering.event
  without :
    ∃ separate numbering',
      History start (solo.map (Numbering.event numbering')) separate ∧
        separate.Hosts session.root numbering' alone

namespace Solo

variable
  {start last after : SharedStore}
  {session : Session}
  {events solo : List Event}
  {numbering : Numbering}
  {alone : Store}
  {event : Event}

/-- A request of the session is performed alone and among the others. -/
theorem own_step
    (isSolo : Solo start session events last numbering alone solo)
    (step : last.Step event after)
    (isOwn : event.session = session) :
    ∃ later performed,
      alone.Precedes later ∧
        Solo start session (events ++ [event]) after numbering later (solo ++ [performed]) := by
  cases step with
  | @perform asker request _ left admits performed =>
      obtain ⟨outcome, -, isEvent⟩ := Store.perform_eq_some performed
      obtain rfl : asker = session := by rw [← isOwn, isEvent]
      obtain ⟨original, made, within, rfl⟩ := isSolo.hosts.exists_request admits
      have ends := isSolo.hosts.perform made within
      rw [performed] at ends
      generalize performedAlone : alone.perform asker original = ending at ends
      cases ends with
      | @some ending other agrees =>
          obtain ⟨sameEvent, hosts, precedes, isWithin⟩ := agrees
          obtain ⟨event', later⟩ := ending
          obtain ⟨outcome', -, isEvent'⟩ := Store.perform_eq_some performedAlone
          refine ⟨later, event', precedes, hosts, ?_, ?_, ?_, ?_⟩
          · intro other member
            rcases List.mem_append.1 member with old | isNew
            · exact isSolo.own other old
            · rw [List.mem_singleton.1 isNew, isEvent']
          · intro other member
            rcases List.mem_append.1 member with old | isNew
            · exact (isSolo.within other old).mono precedes
            · rw [List.mem_singleton.1 isNew]
              exact isWithin
          · have isKept : [event].filter (·.session = asker) = [event] := by simp [isOwn]
            rw [List.filter_append, isSolo.filtered, isKept, List.map_append]
            exact congrArg (_ ++ [·]) sameEvent
          · obtain ⟨separate, numbering', history, hosts'⟩ := isSolo.without
            have ends' := hosts'.perform made within
            rw [performedAlone] at ends'
            generalize performed' : separate.store.perform asker _ = other at ends'
            cases ends' with
            | some agrees' =>
                obtain ⟨sameEvent', hostsThen, -, -⟩ := agrees'
                refine ⟨_, numbering', ?_, hostsThen⟩
                rw [List.map_append, List.map_singleton, Numbering.event, ← sameEvent']
                exact history.concat (.perform (hosts'.admits made within) performed')

/-- A request of another session leaves the history of the session as it is. -/
theorem other_step
    (isSolo : Solo start session events last numbering alone solo)
    (isOther : event.session ≠ session)
    (hosts :
      after.Hosts session.root (numbering.later last.store after.store) alone) :
    Solo start session (events ++ [event]) after (numbering.later last.store after.store) alone
      solo where
  hosts := hosts
  own := isSolo.own
  within := isSolo.within
  filtered := by
    have isDropped : [event].filter (·.session = session) = [] := by simp [isOther]
    rw [List.filter_append, isSolo.filtered, isDropped, List.append_nil]
    refine List.map_congr_left fun other member => ?_
    have mirrors := isSolo.hosts.mirrors
    exact (isSolo.within other member).map_congr
      (fun value within => (mirrors.later_value after.store within).symm)
      fun frame made => (mirrors.later_frame after.store made).symm
  without := isSolo.without

end Solo

/-- Whose tree it was before, or the tree of the session that has opened the frame. -/
theorem Step.root?_cases
    {before after : SharedStore}
    {event : Event}
    (step : before.Step event after)
    {numbering : Numbering}
    {alone later : Store}
    (hosts : before.Hosts event.session.root numbering alone)
    (hostsThen : after.Hosts event.session.root numbering later)
    {frame root : FrameId}
    (inTree : after.store.root? frame = some root) :
    before.store.root? frame = some root ∨
      before.store.nextFrame ≤ frame ∧ root = event.session.root := by
  cases step with
  | perform admits performed =>
      rcases Nat.lt_or_ge frame before.store.nextFrame with old | isNew
      · have keeps := (Store.perform_changesOnly performed).keepsParents
        exact Or.inl ((keeps.root?_eq old).symm.trans inTree)
      · have made := Store.lt_nextFrame_of_root? inTree
        have ofSession := hosts.root?_of_new hostsThen isNew made
        exact Or.inr ⟨isNew, Option.some.inj (inTree.symm.trans ofSession)⟩

/-- Every session has a history of its own in every history. -/
theorem History.exists_solo
    {count : Nat}
    {events : List Event}
    {last : SharedStore}
    (history : History (start count) events last)
    {session : Session}
    {frame : FrameId}
    (inTree : last.store.root? frame = some session.root) :
    ∃ numbering alone solo, Solo (start count) session events last numbering alone solo := by
  induction history generalizing session frame with
  | nil =>
      have made := Store.lt_nextFrame_of_root? inTree
      have entered := hasEntered_start count
      rw [entered.nextFrame] at made
      obtain ⟨numbering, hosts⟩ :=
        entered.hosts session.root (Nat.lt_of_le_of_lt (Store.root?_le inTree) made)
      exact ⟨numbering, _, [], hosts, nofun, nofun, rfl, start count, numbering, .nil, hosts⟩
  | @concat events before event after history step ih =>
      -- The session of the request has a history of its own, and goes on with it.
      have addressed : ∃ target, before.store.root? target = some event.session.root := by
        cases step with
        | perform admits performed =>
            obtain ⟨outcome, -, rfl⟩ := Store.perform_eq_some performed
            exact ⟨_, admits.addressed⟩
      obtain ⟨target, inTarget⟩ := addressed
      obtain ⟨numbering, alone, solo, isSolo⟩ := ih inTarget
      obtain ⟨later, performed, precedes, goesOn⟩ := isSolo.own_step step rfl
      by_cases isOwn : event.session = session
      · obtain rfl := isOwn
        exact ⟨numbering, later, _, goesOn⟩
      · -- What it opens is in its own tree, so the tree of any other session stays as it is.
        have different : event.session.root ≠ session.root := fun same =>
          isOwn (congrArg Session.mk same)
        have inTreeBefore :=
          (step.root?_cases isSolo.hosts goesOn.hosts inTree).resolve_right
            fun isNew => different isNew.2.symm
        obtain ⟨numbering', alone', solo', isSolo'⟩ := ih inTreeBefore
        refine ⟨_, alone', solo', isSolo'.other_step isOwn ?_⟩
        have precedesAll := isSolo.hosts.precedes goesOn.hosts precedes
        have foreign (home : FrameId) (isNew : before.store.nextFrame ≤ home) :
            after.store.root? home ≠ some session.root := by
          intro inHome
          rcases step.root?_cases isSolo.hosts goesOn.hosts inHome with old | ⟨-, same⟩
          · exact absurd (Store.lt_nextFrame_of_root? old) (Nat.not_lt.2 isNew)
          · exact different same.symm
        cases step with
        | @perform asker request _ left admits performed =>
            obtain ⟨outcome, -, rfl⟩ := Store.perform_eq_some performed
            have changes := Store.perform_changesOnly performed
            refine isSolo'.hosts.elsewhere inTreeBefore different precedesAll
              changes.keepsParents ?_ foreign
            intro home content inHome found
            refine changes.others home content ?_ found
            rintro rfl
            exact different (Option.some.inj (admits.addressed.symm.trans inHome))

/-- Frames stay in their trees throughout a history. -/
theorem History.root?_eq
    {start last : SharedStore}
    {events : List Event}
    (history : History start events last)
    {frame root : FrameId}
    (inTree : start.store.root? frame = some root) :
    last.store.root? frame = some root := by
  induction history with
  | nil => exact inTree
  | concat history step ih =>
      cases step with
      | perform admits performed =>
          have keeps := (Store.perform_changesOnly performed).keepsParents
          exact (keeps.root?_eq (Store.lt_nextFrame_of_root? ih)).trans ih

end SharedStore

open SharedStore in
/--
Take any history of requests of any sessions in a shared store, each addressed to the
tree of its session and with values of this tree, and any one of the sessions.  There is
a history in which no other session does anything, and in which the session makes the
same requests with the same replies, faults and texts, but for the numbers of functions
and frames.  The tree of the session is the same at the end, and functions and frames
are numbered in the same order.  From there on the session can make the same requests,
and none of them gets too deep but those that get too deep among the others.
-/
theorem sessions_isolated
    {count : Nat}
    {events : List Event}
    {last : SharedStore}
    (history : History (start count) events last)
    {session : Session}
    (entered : session.root < count) :
    ∃ separateEvents separate function frame,
      History (start count) separateEvents separate ∧
        (∀ event ∈ separateEvents, event.session = session) ∧
          events.filter (·.session = session) =
              separateEvents.map (Event.renumber function frame) ∧
            separate.SameTree session.root function frame last ∧
              ∀ request, last.Admits session request →
                ∃ same : Request, separate.Admits session same ∧
                  same.map (Value.renumber function frame) frame = request ∧
                    (separate.store.perform session same = none ↔
                      last.store.perform session request = none) := by
  have inStart : (start count).store.root? session.root = some session.root := by
    obtain ⟨numbering, hosts⟩ := (hasEntered_start count).hosts session.root entered
    exact (hosts.frames _).2 ⟨0, by decide +kernel, hosts.root_eq⟩
  obtain ⟨late, alone, solo, isSolo⟩ := history.exists_solo (history.root?_eq inStart)
  obtain ⟨separate, early, separateHistory, hosts⟩ := isSolo.without
  refine ⟨_, separate, early.functionTo late, early.frameTo late, separateHistory, ?_, ?_,
    hosts.sameTree isSolo.hosts, ?_⟩
  · intro event member
    obtain ⟨original, isSoloEvent, rfl⟩ := List.mem_map.1 member
    exact isSolo.own original isSoloEvent
  · rw [isSolo.filtered, List.map_map]
    exact List.map_congr_left fun event _ => (early.renumber_event late event).symm
  · intro request admits
    obtain ⟨original, made, within, rfl⟩ := isSolo.hosts.exists_request admits
    refine ⟨original.map early.value early.frame, hosts.admits made within, ?_, ?_⟩
    · rw [Request.map_map, early.frameTo_comp late]
      exact congrArg (original.map · late.frame) (funext (early.renumber_value late))
    · have ends := hosts.perform made within
      have ends' := isSolo.hosts.perform made within
      generalize alone.perform session original = ending at ends ends'
      generalize separate.store.perform session _ = first at ends ⊢
      generalize last.store.perform session _ = second at ends' ⊢
      cases ends with
      | none =>
          cases ends'
          exact Iff.rfl
      | some =>
          cases ends'
          exact ⟨nofun, nofun⟩

/-- The shared store after a frame is opened for a session. -/
def SharedStore.openFrame
    (shared : SharedStore)
    (session : Session)
    (parent : FrameId) :
    SharedStore :=
  shared.proceed session (shared.store.forgetOutput.addFrame ⟨[], some parent⟩)

theorem SharedStore.step_openFrame
    {shared : SharedStore}
    {session : Session}
    {parent : FrameId}
    (addressed : shared.store.root? parent = some session.root) :
    shared.Step ⟨session, .child parent, .ok (.opened shared.store.nextFrame), ""⟩
      (shared.openFrame session parent) := by
  have admits : shared.Admits session (.child parent) := ⟨addressed, List.forall_mem_nil _⟩
  exact .perform admits rfl

/-- A definition, and the writing of its value. -/
def writingForm : Value :=
  .list [.symbol "prn", .list [.symbol "def!", .symbol "x", .keyword "a"]]

/-- Two sessions, each of which has opened a frame, the second one before the first one. -/
def twoSessions : SharedStore :=
  ((SharedStore.start 2).openFrame ⟨1⟩ 1).openFrame ⟨0⟩ 0

open SharedStore in
theorem sessions_isolated_of_two :
    ∃ events last separateEvents separate,
      History (start 2) events last ∧
        events.map (fun event => (event.session.root, event.request.frame, event.text)) =
            [(1, 1, ""), (0, 0, ""), (0, 3, ":a\n")] ∧
          History (start 2) separateEvents separate ∧
            separateEvents.map (fun event => (event.session.root, event.text)) =
              [(0, ""), (0, ":a\n")] := by
  have first : (start 2).Step _ ((start 2).openFrame ⟨1⟩ 1) := step_openFrame (by decide +kernel)
  have second : ((start 2).openFrame ⟨1⟩ 1).Step _ twoSessions := step_openFrame (by decide +kernel)
  have admits : twoSessions.Admits ⟨0⟩ (.eval 3 3 writingForm) := by
    constructor
    · decide +kernel
    · exact List.forall_mem_singleton.2 (Value.numbersIn_of_no_function _ _ (by decide))
  have written :
      (twoSessions.store.perform ⟨0⟩ (.eval 3 3 writingForm)).map (fun ending => ending.1.text) =
        some ":a\n" := by decide +kernel
  obtain ⟨⟨event, after⟩, performed, text⟩ := Option.map_eq_some_iff.1 written
  have history := ((History.nil.concat first).concat second).concat (.perform admits performed)
  have entered : (Session.mk 0).root < 2 := by decide
  obtain ⟨separateEvents, separate, function, frame, separateHistory, own, same, -⟩ :=
    sessions_isolated history entered
  obtain ⟨outcome, -, rfl⟩ := Store.perform_eq_some performed
  change after.output = ":a\n" at text
  refine ⟨_, _, separateEvents, separate, history, ?_, separateHistory, ?_⟩
  · simp [Request.frame, text]
  · have shown := congrArg (List.map fun event => (event.session.root, event.text)) same
    rw [List.map_map] at shown
    refine shown.symm.trans ?_
    simp [text]

end MiniLisp
