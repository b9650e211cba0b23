import MiniLisp.Proofs.Eval.Effects

/-!
# How closures are made and applied

This module shows when a closure is made, and what its application does to the frames.

A closure is made exactly if the parameters are a list or vector of symbols in which the
mark of the rest parameter does not stand, or stands once and directly before the last
symbol.  What is checked then makes every application safe: an argument count that the
parameters do not admit is a fault before any frame is opened, and for every other count
each parameter has an argument, so that no access by position is out of range.  The body
is evaluated in a new frame below the frame in which the closure was made, wherever the
call stands (`closure_made_and_applied`).
-/

namespace MiniLisp

/-- The bindings of the frame in which the body of a closure is evaluated. -/
structure Parameters.Binds
    (parameters : Parameters)
    (arguments : List Value)
    (bindings : Bindings) :
    Prop where
  /-- The rest parameter has all arguments behind those of the positional ones. -/
  rest :
    ∀ name, parameters.rest = some name →
      bindings.get? name = some (.list (arguments.drop parameters.positional.length))
  /-- Every other name has the argument at its last place, and no further name is bound. -/
  positional :
    ∀ name, parameters.rest ≠ some name → ∀ value,
      bindings.get? name = some value ↔
        ∃ before after,
          parameters.positional = before ++ name :: after ∧ name ∉ after ∧
            arguments[before.length]? = some value

theorem Parameters.binds_bind
    {parameters : Parameters}
    {arguments : List Value}
    (admits : parameters.Admits arguments.length) :
    parameters.Binds arguments (Bindings.ofPairs (parameters.bind arguments)) where
  rest := by
    intro name isRest
    rw [Bindings.get?_ofPairs, lookup_reverse_bind_of_rest isRest]
  positional := by
    intro name noRest value
    rw [Bindings.get?_ofPairs, lookup_reverse_bind_of_positional noRest,
      lookup_reverse_zip_eq_some_iff admits.positional_le]

namespace Value

/-- The form that makes a closure of parameters and a body. -/
def closureForm (parameters body : Value) : Value :=
  list [symbol SpecialForm.function.name, parameters, body]

end Value

/-- The form makes a closure in its frame, or fails and leaves the store as it is. -/
theorem outcome_closureForm
    (evaluate : Evaluator)
    (frame : FrameId)
    (form body : Value)
    (store : Store) :
    (Eval.evalForm evaluate frame (Value.closureForm form body)).outcome store =
      match Parameters.ofValue SpecialForm.function.name form with
      | .ok parameters =>
        some
          (.ok (.closure store.functions parameters body (some frame)), store.addFunction)
      | .error fault => some (.error fault, store) := by
  show (Action.ofExcept (Parameters.ofValue SpecialForm.function.name form) >>=
    fun parameters => Action.makeClosure parameters body frame).outcome store = _
  rw [Action.outcome_bind, Action.outcome_ofExcept]
  cases Parameters.ofValue SpecialForm.function.name form <;> rfl

/-! ## Applications -/

namespace Call

variable
  {evaluate : Evaluator}
  {identity : Nat}
  {parameters : Parameters}
  {body : Value}
  {home : FrameId}
  {arguments : List Value}

theorem outcome_apply_of_admits
    (admits : parameters.Admits arguments.length)
    (store : Store) :
    (apply evaluate (.closure identity parameters body (some home)) arguments).outcome store =
      (evaluate store.nextFrame body).outcome
        (store.addFrame ⟨Bindings.ofPairs (parameters.bind arguments), some home⟩) := by
  rw [apply, applyClosure, if_pos (Parameters.accepts_iff_admits.2 admits),
    Action.outcome_bind, Action.outcome_openFrame]

theorem outcome_apply_of_not_admits
    (notAdmits : ¬ parameters.Admits arguments.length)
    (store : Store) :
    (apply evaluate (.closure identity parameters body (some home)) arguments).outcome store =
      some
        (.error (.arity SpecialForm.function.name parameters.arity arguments.length), store) := by
  have refused : ¬ parameters.arity.accepts arguments.length = true :=
    fun accepted => notAdmits (Parameters.accepts_iff_admits.1 accepted)
  rw [apply, applyClosure, if_neg refused]
  rfl

/-- A body is evaluated with one more frame in the store, whatever it does there. -/
theorem ne_of_outcome_in_new_frame
    (confined : evaluate.IsConfined)
    {content : Frame}
    {store after : Store}
    {outcome : Except Fault Value}
    (ends :
      (evaluate store.nextFrame body).outcome (store.addFrame content) = some (outcome, after)) :
    after ≠ store := by
  rintro rfl
  have changes := confined _ body _ outcome _ ends
  obtain ⟨_, found, -⟩ := changes.own content (by rw [Store.frame?_addFrame, if_pos rfl])
  exact absurd (Store.lt_nextFrame_of_frame? found) (Nat.lt_irrefl _)

/-- The application fails without a new frame exactly if the count is not admitted. -/
theorem outcome_apply_eq_arity_iff
    (confined : evaluate.IsConfined)
    {store : Store} :
    (apply evaluate (.closure identity parameters body (some home)) arguments).outcome store =
        some
          (.error (.arity SpecialForm.function.name parameters.arity arguments.length), store) ↔
      ¬ parameters.Admits arguments.length := by
  constructor
  · intro fails admits
    rw [outcome_apply_of_admits admits] at fails
    exact ne_of_outcome_in_new_frame confined fails rfl
  · intro notAdmits
    exact outcome_apply_of_not_admits notAdmits store

/-- Once the head of a call has come to a function, the other parts become its arguments. -/
theorem outcome_call_of_head
    {frame : FrameId}
    {head : Value}
    (plain : SpecialForm.ofHead? head = none)
    {function : Value}
    {store between : Store}
    (headEnds : (evaluate frame head).outcome store = some (.ok function, between))
    (parts : List Value) :
    (Eval.evalForm evaluate frame (.list (head :: parts))).outcome store =
      (parts.mapM (evaluate frame) >>= apply evaluate function).outcome between := by
  rw [Eval.evalForm, Eval.evalList, plain]
  dsimp only
  rw [Action.outcome_bind, headEnds]

/-- A call applies the function that its head comes to, in whatever frame it stands. -/
theorem outcome_call
    {frame : FrameId}
    {head : Value}
    (plain : SpecialForm.ofHead? head = none)
    {function : Value}
    {parts : List Value}
    {store between after : Store}
    (headEnds : (evaluate frame head).outcome store = some (.ok function, between))
    (partsEnd : (parts.mapM (evaluate frame)).outcome between = some (.ok arguments, after)) :
    (Eval.evalForm evaluate frame (.list (head :: parts))).outcome store =
      (apply evaluate function arguments).outcome after := by
  rw [outcome_call_of_head plain headEnds, Action.outcome_bind, partsEnd]

end Call

/-- The function is applied as a closure of parameters and a body that was made in a frame. -/
structure Value.AppliesAsClosure
    (function : Value)
    (parameters : Parameters)
    (body : Value)
    (home : FrameId) :
    Prop where
  /-- The count is a fault, with the store as it was, exactly if it is not admitted. -/
  fails_iff :
    ∀ depth arguments store,
      (Call.apply (eval depth) function arguments).outcome store =
          some
            (.error (.arity SpecialForm.function.name parameters.arity arguments.length),
              store) ↔
        ¬ parameters.Admits arguments.length
  /-- For an admitted count the body is evaluated in a new frame below the home frame. -/
  evaluates :
    ∀ depth arguments store,
      parameters.Admits arguments.length →
        ∃ pairs,
          parameters.bindAt? arguments = some pairs ∧
            parameters.Binds arguments (Bindings.ofPairs pairs) ∧
            (Call.apply (eval depth) function arguments).outcome store =
              (eval depth store.nextFrame body).outcome
                (store.addFrame ⟨Bindings.ofPairs pairs, some home⟩)
  /-- Calls that come to the function apply it alike, whatever frame they stand in. -/
  called :
    ∀ depth caller head parts arguments store between after,
      SpecialForm.ofHead? head = none →
        (eval depth caller head).outcome store = some (.ok function, between) →
          (parts.mapM (eval depth caller)).outcome between = some (.ok arguments, after) →
            (eval (depth + 1) caller (.list (head :: parts))).outcome store =
              (Call.apply (eval depth) function arguments).outcome after

theorem Value.appliesAsClosure_closure
    (identity : Nat)
    (parameters : Parameters)
    (body : Value)
    (home : FrameId) :
    (closure identity parameters body (some home)).AppliesAsClosure parameters body home where
  fails_iff := fun depth _ _ => Call.outcome_apply_eq_arity_iff (isConfined_eval depth)
  evaluates := by
    intro depth arguments store admits
    refine ⟨parameters.bind arguments, Parameters.bindAt?_eq_some admits,
      Parameters.binds_bind admits, ?_⟩
    exact Call.outcome_apply_of_admits admits store
  called := by
    intro depth caller head parts arguments store between after plain headEnds partsEnd
    exact Call.outcome_call plain headEnds partsEnd

/--
A closure is made exactly if the parameters are a list or vector of symbols in which the
mark does not stand, or stands once and directly before the last symbol; otherwise the
form fails and leaves the store as it is.

Every closure so made is applied by the parameters that the symbols denote: in a new frame
below the frame in which it was made, or, if the number of arguments is not admitted, not
at all.  Neither when the closure is made nor when it is applied is a position out of range.
-/
theorem closure_made_and_applied
    (depth : Nat)
    (frame : FrameId)
    (form body : Value)
    (store : Store) :
    ((∃ function after,
        (eval (depth + 1) frame (Value.closureForm form body)).outcome store =
          some (.ok function, after)) ↔
        ∃ names, form.items? = some (names.map Value.symbol) ∧
          Parameters.IsWellMarked names) ∧
      ((¬ ∃ names, form.items? = some (names.map Value.symbol) ∧
          Parameters.IsWellMarked names) →
        ∃ fault,
          (eval (depth + 1) frame (Value.closureForm form body)).outcome store =
            some (.error fault, store)) ∧
      (∀ function after,
        (eval (depth + 1) frame (Value.closureForm form body)).outcome store =
            some (.ok function, after) →
          ∃ names parameters,
            form.items? = some (names.map Value.symbol) ∧
              Parameters.Denotes names parameters ∧
              function = .closure store.functions parameters body (some frame) ∧
              after = store.addFunction ∧
              function.AppliesAsClosure parameters body frame) ∧
      ∀ names,
        ∃ found,
          Parameters.ofPositions? names = some found ∧
            ∀ parameters, found = some parameters ↔ Parameters.Denotes names parameters := by
  rw [eval_succ, outcome_closureForm, ← Parameters.exists_ofValue_eq_ok_iff]
  refine ⟨?_, ?_, ?_, ?_⟩
  · cases Parameters.ofValue SpecialForm.function.name form <;> simp
  · intro notMade
    cases made : Parameters.ofValue SpecialForm.function.name form with
    | ok parameters => exact absurd ⟨parameters, made⟩ notMade
    | error fault => exact ⟨fault, rfl⟩
  · intro function after ends
    cases made : Parameters.ofValue SpecialForm.function.name form with
    | error fault =>
        rw [made] at ends
        cases ends
    | ok parameters =>
        rw [made] at ends
        cases ends
        obtain ⟨names, isSequence, denotes⟩ := Parameters.ofValue_eq_ok_iff.1 made
        exact ⟨names, parameters, isSequence, denotes, rfl, rfl,
          Value.appliesAsClosure_closure _ parameters body frame⟩
  · intro names
    refine ⟨Parameters.ofNames? names, Parameters.ofPositions?_eq_some names, ?_⟩
    intro parameters
    exact Parameters.ofNames?_eq_some_iff

/-- A function of a positional parameter and a rest parameter of the same name. -/
def restOfArguments : Value :=
  Value.closureForm (.vector [.symbol "x", .symbol "&", .symbol "x"]) (.symbol "x")

theorem closure_made_and_applied_of_repeated_name :
    ∃ function made after,
      (eval 1 0 restOfArguments).outcome singleFrame = some (.ok function, made) ∧
        (Call.apply (eval 1) function []).outcome made =
          some (.error (.arity "fn*" (.atLeast 1) 0), made) ∧
        (Call.apply (eval 1) function [.number 1, .number 2]).outcome made =
          some (.ok (.list [.number 2]), after) := by
  have made :
      (eval 1 0 restOfArguments).outcome singleFrame =
        some
          (.ok (.closure 1 ⟨["x"], some "x"⟩ (.symbol "x") (some 0)),
            singleFrame.addFunction) := rfl
  obtain ⟨_, parameters, -, -, same, -, applies⟩ :=
    (closure_made_and_applied 0 0 _ (.symbol "x") singleFrame).2.2.1 _ _ made
  cases same
  have notAdmits : ¬ (Parameters.mk ["x"] (some "x")).Admits 0 :=
    fun admits => absurd admits.positional_le (by decide)
  have admits : (Parameters.mk ["x"] (some "x")).Admits 2 := Nat.le_succ 1
  obtain ⟨pairs, -, binds, evaluated⟩ :=
    applies.evaluates 1 [.number 1, .number 2] singleFrame.addFunction admits
  -- The second place of the name is that of the rest parameter.
  rw [eval_succ, Eval.evalForm, Action.outcome_lookup,
    Store.lookup?_of_bound (by rw [Store.frame?_addFrame, if_pos rfl]) (binds.rest "x" rfl)]
    at evaluated
  exact ⟨_, _, _, made, (applies.fails_iff 1 [] _).2 notAdmits, evaluated⟩

end MiniLisp
