import MiniLisp.Proofs.Eval.Programs

/-!
# What sessions hold

This module shows what all values of a session have in common, whatever texts it is
given and whether their evaluation succeeds or fails.

Outside of the bodies of functions, no value contains a symbol or a comment.  A closure
has parameters of which none is the mark `&`, a body without comments, and a frame that
has been made; any other function is a builtin function.  The parent of a frame is older
than the frame (`Store.IsClean`).  A call fails only with an error in the text or with an
ordinary fault, which is never that of a comment in the place of a form, and never an
internal one (`Session.reached_clean`).

An internal fault would come from the application of a function that carries no frame or
no routine of its own.  An evaluation can apply such a function if it is given one, so it
is the cleanness of all values, and not the evaluation alone, that keeps calls from it.

Since frames are never removed, all of this holds of every frame that a call has made on
its way, also if the call fails.  The application of a function opens a frame below that
of the function.  If the frame of the function were missing, the new frame would be no
younger than its parent; so no call ever applies such a function.
-/

namespace MiniLisp

/-- No name is the mark of the rest parameter. -/
structure Parameters.IsProper (parameters : Parameters) : Prop where
  positional : restMark ∉ parameters.positional
  rest : parameters.rest ≠ some restMark

theorem Parameters.isProper_of_ofNames?
    {names : List String}
    {parameters : Parameters}
    (denoted : ofNames? names = some parameters) :
    parameters.IsProper := by
  cases ofNames?_eq_some_iff.1 denoted with
  | fixed unmarked => exact ⟨unmarked, nofun⟩
  | @variadic before last once =>
      rw [List.count_append, List.count_cons_self] at once
      constructor
      · show restMark ∉ before
        exact List.count_eq_zero.1 (by omega)
      · rintro ⟨⟩
        rw [List.count_cons_self] at once
        omega

namespace Value

/-! ## Clean values -/

/-- A form without comments and without functions, at every depth. -/
structure IsCleanForm (form : Value) : Prop where
  noComment : form.everywhere (!·.isComment) = true
  noFunction : form.everywhere (!·.isFunction) = true

/-- What a value may be, but for its parts. -/
def IsCleanHere (store : Store) : Value → Prop
  | symbol _ => False
  | comment _ => False
  | closure _ parameters body home =>
    parameters.IsProper ∧ body.IsCleanForm ∧ ∃ frame, home = some frame ∧ frame < store.nextFrame
  | native _ routine => ∃ builtin, routine = .builtin builtin
  | _ => True

/-- What a value may be, at every depth, where the body of a function is no part of it. -/
abbrev IsClean
    (store : Store)
    (value : Value) :
    Prop :=
  value.EachPart (IsCleanHere store)

theorem IsClean.mono
    {before after : Store}
    {value : Value}
    (clean : value.IsClean before)
    (precedes : before.Precedes after) :
    value.IsClean after := by
  refine EachPart.mono clean fun part here => ?_
  cases part with
  | closure =>
      rcases here with ⟨proper, body, frame, isHome, made⟩
      exact ⟨proper, body, frame, isHome, Nat.lt_of_lt_of_le made precedes.frames⟩
  | _ => exact here

theorem IsCleanForm.part
    {form part : Value}
    (clean : form.IsCleanForm)
    (member : part ∈ form.parts) :
    part.IsCleanForm where
  noComment := (everywhere_iff.1 clean.noComment).2 part member
  noFunction := (everywhere_iff.1 clean.noFunction).2 part member

theorem IsCleanForm.isClean_of_isConstant
    {form : Value}
    (clean : form.IsCleanForm)
    (constant : form.isConstant = true)
    (store : Store) :
    form.IsClean store := by
  have noFunction := (everywhere_iff.1 clean.noFunction).1
  cases form with
  | closure => cases noFunction
  | native => cases noFunction
  | symbol => cases constant
  | list => cases constant
  | vector => cases constant
  | map => cases constant
  | comment => cases constant
  | _ => exact .leaf trivial rfl

/-- A legible form has neither comments nor functions. -/
theorem Legible.isCleanForm
    {form : Value}
    (legible : form.Legible) :
    form.IsCleanForm where
  noComment := by
    apply everywhere_mono ?_ legible.printable
    intro value here
    cases value with
    | comment => cases here
    | _ => rfl
  noFunction := noFunction_of_isPrintable legible.printable

end Value

/-- All bound values are clean, and all parents are older than their children. -/
structure Store.IsClean (store : Store) : Prop where
  bound :
    ∀ frame content name value,
      store.frame? frame = some content → content.bindings.get? name = some value →
        value.IsClean store
  parent :
    ∀ frame content parent,
      store.frame? frame = some content → content.parent = some parent → parent < frame

/-- Forms have neither comments nor functions, and values are clean. -/
def Invariant.clean : Invariant where
  form := fun _ form => form.IsCleanForm
  value := fun store value => value.IsClean store
  form_mono := fun _ good => good
  value_mono := fun precedes good => good.mono precedes
  form_part := fun good member => good.part member
  value_constant := fun good constant => good.isClean_of_isConstant constant _
  value_nil := fun _ => .leaf trivial rfl
  value_boolean := fun _ _ => .leaf trivial rfl
  value_number := fun _ _ => .leaf trivial rfl
  value_list := fun good => .intro trivial good
  value_vector := fun good => .intro trivial good
  value_map := fun good => .intro trivial (Entries.forall_items_ofPairs good)
  value_raw := fun _ => .leaf trivial rfl
  value_escaped := fun _ => .leaf trivial rfl
  value_closure := fun denoted good made =>
    .leaf ⟨Parameters.isProper_of_ofNames? denoted, good, _, rfl, made⟩ rfl
  closure_body := by
    intro store identity parameters body home good
    obtain ⟨-, clean, _, ⟨⟩, made⟩ := good.here
    exact ⟨clean, made⟩

theorem Invariant.Holds.isClean
    {store : Store}
    (holds : Invariant.clean.Holds store) :
    store.IsClean where
  bound := fun _ _ _ _ found bound => holds.bound found bound
  parent := fun _ _ _ found isParent => holds.parent found isParent

/-- A fault that is allowed where all forms and values are clean is ordinary. -/
theorem Invariant.isOrdinary_of_allows_clean
    {fault : Fault}
    (allows : Invariant.clean.Allows fault) :
    fault.IsOrdinary := by
  cases allows with
  | ordinary ordinary => exact ordinary
  | comment isForm => cases isForm.noComment
  | home isValue =>
      obtain ⟨-, -, _, ⟨⟩, -⟩ := isValue.here
  | routine isValue =>
      obtain ⟨_, ⟨⟩⟩ := isValue.here

namespace Session

/-! ## Calls -/

/-- What a session can be asked to do with a text. -/
inductive Call where
  | evalFirst (source : String)
  | respond (source : String)
  | evalAll (source : String)

/-- The action of a call, for the value that it returns; a response is a text and no value. -/
def Call.run
    (session : Session)
    (depth : Nat) :
    Call → Action (Option Value)
  | evalFirst source => session.evalFirst depth source
  | respond source => (fun _ => none) <$> session.respond depth source
  | evalAll source => some <$> session.evalAll depth source

/-- The stores that a fresh session comes to, call by call, also if calls fail. -/
inductive Reached : Store → Prop where
  | enter : Reached (enter .empty)
  | call
      {before after : Store}
      (reached : Reached before)
      (depth : Nat)
      (call : Call)
      {outcome : Except Fault (Option Value)}
      (ends : (call.run (next .empty) depth).outcome before = some (outcome, after)) :
      Reached after

/-! ## Every call -/

/-- What a call leaves that starts in a store and ends. -/
structure EndsClean
    (before : Store)
    (outcome : Except Fault (Option Value))
    (after : Store) :
    Prop where
  precedes : before.Precedes after
  holds : Invariant.clean.Holds after
  clean : ∀ value, outcome = .ok (some value) → value.IsClean after
  fault : ∀ fault, outcome = .error fault → (∃ error, fault = .parse error) ∨ fault.IsOrdinary

variable
  {session : Session}
  {store after : Store}
  {outcome : Except Fault (Option Value)}

theorem EndsClean.parse
    (precedes : store.Precedes after)
    (holds : Invariant.clean.Holds after)
    (error : ParseError) :
    EndsClean store (.error (.parse error)) after := by
  refine ⟨precedes, holds, ?_, ?_⟩
  · rintro _ ⟨⟩
  · rintro _ ⟨⟩
    exact Or.inl ⟨error, rfl⟩

theorem EndsClean.nothing
    (precedes : store.Precedes after)
    (holds : Invariant.clean.Holds after) :
    EndsClean store (.ok none) after := by
  refine ⟨precedes, holds, ?_, ?_⟩
  · rintro _ ⟨⟩
  · rintro _ ⟨⟩

theorem EndsClean.of_leaves_error
    {fault : Fault}
    {Result : Type}
    (precedes : store.Precedes after)
    (leaves : Invariant.clean.Leaves (.error fault : Except Fault Result) after) :
    EndsClean store (.error fault) after := by
  refine ⟨precedes, leaves.holds, ?_, ?_⟩
  · rintro _ ⟨⟩
  · rintro _ ⟨⟩
    exact Or.inr (Invariant.isOrdinary_of_allows_clean (leaves.allows fault rfl))

theorem EndsClean.of_maintains
    (holds : Invariant.clean.Holds store)
    {action : Action Value}
    (maintains : Invariant.clean.Maintains store Invariant.clean.value action)
    (ends : (some <$> action).outcome store = some (outcome, after)) :
    EndsClean store outcome after := by
  rw [Action.outcome_map] at ends
  rcases Option.map_eq_some_iff.1 ends with ⟨⟨result, between⟩, evaluated, same⟩
  rcases maintains holds _ _ evaluated with ⟨precedes, leaves, good⟩
  cases result with
  | error fault =>
      cases same
      exact .of_leaves_error precedes leaves
  | ok value =>
      cases same
      refine ⟨precedes, leaves.holds, ?_, ?_⟩
      · rintro _ ⟨⟩
        exact good value rfl
      · rintro _ ⟨⟩

theorem endsClean_evalFirst
    (holds : Invariant.clean.Holds store)
    (entered : session.root < store.nextFrame)
    (depth : Nat)
    (source : String)
    (ends : (session.evalFirst depth source).outcome store = some (outcome, after)) :
    EndsClean store outcome after := by
  unfold evalFirst at ends
  split at ends
  · next error _ =>
      cases ends
      exact .parse (.refl store) holds error
  · cases ends
    exact .nothing (.refl store) holds
  · next form noComment read =>
      apply EndsClean.of_maintains holds ?_ ends
      apply Invariant.maintains_eval .clean depth store session.root form entered
      rcases Form.legible_of_ofSource read with ⟨text, isComment⟩ | legible
      · exact absurd isComment (noComment text)
      · exact legible.isCleanForm

/-- A response is made from the value of the first form, and changes nothing. -/
theorem respond_eq_map
    (session : Session)
    (depth : Nat)
    (source : String) :
    session.respond depth source =
      (fun
        | none => none
        | some .nil => none
        | some value => some value.readable) <$> session.evalFirst depth source := by
  rw [respond, map_eq_pure_bind]
  apply bind_congr
  intro returned
  cases returned with
  | none => rfl
  | some value =>
      cases value with
      | _ => rfl

theorem endsClean_respond
    (holds : Invariant.clean.Holds store)
    (entered : session.root < store.nextFrame)
    (depth : Nat)
    (source : String)
    (ends :
      ((fun _ => none) <$> session.respond depth source).outcome store = some (outcome, after)) :
    EndsClean store outcome after := by
  rw [respond_eq_map, Functor.map_map, Action.outcome_map] at ends
  rcases Option.map_eq_some_iff.1 ends with ⟨⟨result, between⟩, evaluated, same⟩
  have first := endsClean_evalFirst holds entered depth source evaluated
  cases result with
  | error fault =>
      cases same
      exact first
  | ok returned =>
      cases same
      exact .nothing first.precedes first.holds

theorem endsClean_evalAll
    (holds : Invariant.clean.Holds store)
    (entered : session.root < store.nextFrame)
    (depth : Nat)
    (source : String)
    (ends : (some <$> session.evalAll depth source).outcome store = some (outcome, after)) :
    EndsClean store outcome after := by
  have good : ∀ form : Value, form.Legible → Invariant.clean.form store form :=
    fun _ legible => legible.isCleanForm
  have maintains := Invariant.maintains_evalForms_ofSource good entered depth source
  cases stop : (Program.ofSource source).stop with
  | none =>
      rw [session.evalAll_of_complete depth stop] at ends
      exact .of_maintains holds maintains ends
  | some error =>
      rw [Action.outcome_map] at ends
      rcases Option.map_eq_some_iff.1 ends with ⟨⟨result, last⟩, evaluated, same⟩
      rw [evalAll, evalProgram, stop] at evaluated
      rcases Action.outcome_bind_cases evaluated with ⟨fault, rfl, failed⟩ | ⟨value, _, made, later⟩
      · rcases maintains holds _ _ failed with ⟨precedes, leaves, -⟩
        cases same
        exact .of_leaves_error precedes leaves
      · rcases maintains holds _ _ made with ⟨precedes, leaves, -⟩
        cases later
        cases same
        exact .parse precedes leaves.holds error

/-- Every call of a session starts and ends clean. -/
theorem endsClean_run
    (holds : Invariant.clean.Holds store)
    (entered : session.root < store.nextFrame)
    (depth : Nat)
    (call : Call)
    (ends : (call.run session depth).outcome store = some (outcome, after)) :
    EndsClean store outcome after := by
  cases call with
  | evalFirst source => exact endsClean_evalFirst holds entered depth source ends
  | respond source => exact endsClean_respond holds entered depth source ends
  | evalAll source => exact endsClean_evalAll holds entered depth source ends

/-- Every store that a fresh session comes to is clean, and has the frame of the session. -/
theorem Reached.holds
    (reached : Reached store) :
    Invariant.clean.Holds store ∧ (next .empty).root < store.nextFrame := by
  induction reached with
  | enter =>
      constructor
      · apply Invariant.Holds.enter (.empty _)
        exact fun _ builtin => .leaf ⟨builtin, rfl⟩ rfl
      · decide +kernel
  | call reached depth call ends ih =>
      rcases ih with ⟨holds, entered⟩
      have ended := endsClean_run holds entered depth call ends
      exact ⟨ended.holds, Nat.lt_of_lt_of_le entered ended.precedes.frames⟩

/--
Every store that a fresh session comes to by calls is clean.  A further call that ends
leaves a clean store, also if it fails, and what it returns is clean.  It fails only with
an error in the text or with an ordinary fault, never because of a comment in the place
of a form, and never with an internal fault.
-/
theorem reached_clean
    {store : Store}
    (reached : Reached store) :
    store.IsClean ∧
      ∀ depth call outcome after,
        (Call.run (next .empty) depth call).outcome store = some (outcome, after) →
          after.IsClean ∧
            (∀ value, outcome = .ok (some value) → value.IsClean after) ∧
            (∀ fault,
              outcome = .error fault →
                ((∃ error, fault = .parse error) ∨ fault.IsOrdinary) ∧
                  (∀ text, fault ≠ .ofComment text) ∧
                  ∀ problem, fault ≠ .internal problem) := by
  rcases reached.holds with ⟨holds, entered⟩
  refine ⟨holds.isClean, ?_⟩
  intro depth call outcome after ends
  have ended := endsClean_run holds entered depth call ends
  refine ⟨ended.holds.isClean, ended.clean, ?_⟩
  intro fault failed
  refine ⟨ended.fault fault failed, ?_⟩
  rcases ended.fault fault failed with ⟨error, rfl⟩ | ordinary
  · constructor
    · rintro text ⟨⟩
    · rintro problem ⟨⟩
  · exact ⟨ordinary.ne_ofComment, ordinary.ne_internal⟩

/-- A call that defines a function and fails afterwards. -/
def failingSource : String := "(do (def! f (fn* [x & r] ; all\n [x r])) (def! g))"

/-- The function that the failing call defines. -/
def definedFunction : Value :=
  .closure (enter .empty).functions ⟨["x"], some "r"⟩
    (.vector [.symbol "x", .symbol "r"]) (some 0)

/-- The store that the failing call leaves. -/
def leftStore : Store :=
  (enter .empty).addFunction.define 0 "f" definedFunction

private theorem outcome_failingSource :
    ((Call.evalFirst failingSource).run (next .empty) 4).outcome (enter .empty) =
      some (.error (.arity "def!" (.exactly 2) 1), leftStore) := by
  have read :
      Form.ofSource failingSource =
        .ok
          (.list
            [.symbol "do",
              .list
                [.symbol "def!", .symbol "f",
                  .list
                    [.symbol "fn*", .vector [.symbol "x", .symbol "&", .symbol "r"],
                      .vector [.symbol "x", .symbol "r"]]],
              .list [.symbol "def!", .symbol "g"]]) := by
    have tokens :
        Token.ofSource failingSource =
          [⟨['('], ⟨1, 1⟩⟩, ⟨['d', 'o'], ⟨1, 2⟩⟩, ⟨['('], ⟨1, 5⟩⟩,
            ⟨['d', 'e', 'f', '!'], ⟨1, 6⟩⟩, ⟨['f'], ⟨1, 11⟩⟩, ⟨['('], ⟨1, 13⟩⟩,
            ⟨['f', 'n', '*'], ⟨1, 14⟩⟩, ⟨['['], ⟨1, 18⟩⟩, ⟨['x'], ⟨1, 19⟩⟩, ⟨['&'], ⟨1, 21⟩⟩,
            ⟨['r'], ⟨1, 23⟩⟩, ⟨[']'], ⟨1, 24⟩⟩, ⟨[';', ' ', 'a', 'l', 'l'], ⟨1, 26⟩⟩,
            ⟨['['], ⟨2, 2⟩⟩, ⟨['x'], ⟨2, 3⟩⟩, ⟨['r'], ⟨2, 5⟩⟩, ⟨[']'], ⟨2, 6⟩⟩, ⟨[')'], ⟨2, 7⟩⟩,
            ⟨[')'], ⟨2, 8⟩⟩, ⟨['('], ⟨2, 10⟩⟩, ⟨['d', 'e', 'f', '!'], ⟨2, 11⟩⟩, ⟨['g'], ⟨2, 16⟩⟩,
            ⟨[')'], ⟨2, 17⟩⟩, ⟨[')'], ⟨2, 18⟩⟩] := by decide +kernel
    rw [Form.ofSource_eq_run]
    show (Machine.run [] (Token.ofSource failingSource)).1 = _
    rw [tokens]
    rfl
  rw [Call.run, evalFirst, read]
  rfl

/-- A failing call leaves a clean function bound, and a call of the function is clean again. -/
theorem reached_clean_of_failing_call :
    definedFunction.IsClean leftStore ∧
      ∀ depth outcome after,
        ((Call.evalAll "(f 1 [2 3])").run (next .empty) depth).outcome leftStore =
            some (outcome, after) →
          after.IsClean ∧
            (∀ value, outcome = .ok (some value) → value.IsClean after) ∧
            ∀ problem, outcome ≠ .error (.internal problem) := by
  have reached : Reached leftStore :=
    .call .enter 4 (.evalFirst failingSource) outcome_failingSource
  rcases reached_clean reached with ⟨clean, calls⟩
  have bound :
      (leftStore.frame? 0).bind (·.bindings.get? "f") = some definedFunction := rfl
  rcases Option.bind_eq_some_iff.1 bound with ⟨content, found, isBound⟩
  constructor
  · exact clean.bound 0 content "f" definedFunction found isBound
  · intro depth outcome after ends
    rcases calls depth _ outcome after ends with ⟨cleanAfter, returned, faults⟩
    exact ⟨cleanAfter, returned, fun problem failed => (faults _ failed).2.2 problem rfl⟩

end Session

end MiniLisp
