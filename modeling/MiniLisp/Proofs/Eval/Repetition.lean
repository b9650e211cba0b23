import MiniLisp.Proofs.Eval.CommonPast
import MiniLisp.Proofs.Eval.Effects
import MiniLisp.Proofs.Eval.Simulation

/-!
# Calls that are repeated

This module shows that functions have no memory: a call that is made a second time
writes the same text and ends in the same way, with the same fault or with the same
value.

The values differ in the numbers of the functions and frames that the calls make.
These are numbered on from where the first call stopped, so that the second value
is the first one with shifted numbers (`Value.renumber`).

No call changes a frame that was there before, so the second call starts from the
same frames.  Both calls are then two runs with a common past
(`TwoRuns.agree_laterCall`).
-/

namespace MiniLisp

namespace Value

mutual

/-- The value with its functions and their frames numbered otherwise. -/
def renumber (function : Nat → Nat) (frame : FrameId → FrameId) : Value → Value
  | list items => list (renumberItems function frame items)
  | vector items => vector (renumberItems function frame items)
  | map entries => map (renumberEntries function frame entries)
  | closure identity parameters body home =>
    closure (function identity) parameters (renumber function frame body) (home.map frame)
  | native identity routine => native (function identity) routine
  | value => value

/-- The items with their functions and frames numbered otherwise. -/
def renumberItems (function : Nat → Nat) (frame : FrameId → FrameId) :
    List Value → List Value
  | [] => []
  | item :: items => renumber function frame item :: renumberItems function frame items

/-- The entries with their functions and frames numbered otherwise. -/
def renumberEntries (function : Nat → Nat) (frame : FrameId → FrameId) :
    List (Value × Value) → List (Value × Value)
  | [] => []
  | (key, value) :: entries =>
    (renumber function frame key, renumber function frame value) ::
      renumberEntries function frame entries

end

variable
  {function : Nat → Nat}
  {frame : FrameId → FrameId}

theorem eq_renumberItems
    {items others : List Value}
    (each : List.Forall₂ (fun item other => other = item.renumber function frame) items others) :
    others = renumberItems function frame items := by
  induction each with
  | nil => rfl
  | cons same _ ih => rw [renumberItems, same, ih]

theorem eq_renumberEntries
    {entries others : List (Value × Value)}
    (each :
      List.Forall₂
        (fun entry other =>
          other.1 = entry.1.renumber function frame ∧ other.2 = entry.2.renumber function frame)
        entries others) :
    others = renumberEntries function frame entries := by
  induction each with
  | nil => rfl
  | cons same _ ih =>
      rw [renumberEntries, ← same.1, ← same.2, ih]

/-- Where frames are paired by a function, values that are alike are the same but for numbers. -/
theorem eq_renumber_of_alike
    {translation : Translation}
    (noRenaming : translation.name = id)
    {pairing : Pairing}
    (graph : ∀ left right scope, pairing left right scope → right = frame left)
    {names : String → Prop}
    {value other : Value}
    (alike : value.Alike translation pairing names other) :
    other = value.renumber translation.function frame := by
  induction value using induction_on_components generalizing names other with
  | step value ih =>
      cases value with
      | symbol name =>
          obtain ⟨-, rfl⟩ := alike_symbol_iff.1 alike
          rw [noRenaming]
          rfl
      | list items =>
          obtain ⟨others, rfl, inItems⟩ := alike_list_iff.1 alike
          apply congrArg list (eq_renumberItems _)
          exact forall₂_imp_of_mem inItems fun item member _ same => ih item member same
      | vector items =>
          obtain ⟨others, rfl, inItems⟩ := alike_vector_iff.1 alike
          apply congrArg vector (eq_renumberItems _)
          exact forall₂_imp_of_mem inItems fun item member _ same => ih item member same
      | map entries =>
          obtain ⟨others, rfl, inEntries⟩ := alike_map_iff.1 alike
          apply congrArg map (eq_renumberEntries _)
          apply forall₂_imp_of_mem inEntries
          intro entry member other same
          constructor
          · exact ih entry.1 (Entries.key_mem_items member) same.1
          · exact ih entry.2 (Entries.value_mem_items member) same.2
      | closure identity parameters body home =>
          obtain ⟨body', home', scope, rfl, homes, inBody⟩ := alike_closure_iff.1 alike
          have sameHome : home' = home.map frame := by
            cases homes with
            | paired paired => exact congrArg some (graph _ _ _ paired)
            | homeless => rfl
          rw [renumber, ← sameHome, ← ih body (List.mem_singleton_self body) inBody]
          rw [noRenaming, parameters.rename_id]
      | native identity routine =>
          cases alike_native_iff.1 alike
          rfl
      | _ =>
          cases alike
          rfl

end Value

/-! ## A store and what a call leaves of it -/

section

variable {store after : Store}

/-- The run from a store, and the run from a later one that keeps its frames. -/
def TwoRuns.laterRun (precedes : store.Precedes after) : TwoRuns where
  toTranslation := .shift store.functions (after.functions - store.functions)
  left := store
  right := after
  allowed := fun left right _ =>
    right = shiftFrom store.nextFrame (after.nextFrame - store.nextFrame) left
  function_made := by
    intro made
    show shiftFrom _ _ _ = _
    rw [shiftFrom_start_add, Nat.add_sub_cancel' precedes.functions]
  allowed_made := by
    intro made _ _ _ _
    rw [shiftFrom_start_add, Nat.add_sub_cancel' precedes.frames]

theorem TwoRuns.laterRun_fixes (precedes : store.Precedes after) :
    (laterRun precedes).Fixes store :=
  Translation.shift_fixes store _

theorem TwoRuns.corresponds_laterRun
    (holds : Invariant.within.Holds store)
    (precedes : store.Precedes after)
    (keeps : store.Keeps after) :
    (laterRun precedes).Corresponds (.diagonal store) store after where
  inStep := ⟨0, 0, "", .refl store, .refl after⟩
  agree := by
    rintro left _ _ ⟨made, rfl, rfl⟩
    exact FramesAgree.self (laterRun_fixes precedes) (Pairing.diagonal_covers store) holds
      (fun _ _ found => found) keeps made
  single := by
    rintro left _ _ _ _ _ ⟨made, rfl, rfl⟩ ⟨⟩
  allowed := by
    rintro left _ _ ⟨made, rfl, rfl⟩
    exact (shiftFrom_of_lt _ made).symm
  together := fun _ isMade => absurd isMade (Nat.not_lt.2 (Nat.le_add_right _ _))

/-- A call ends alike in a store and in a later store that keeps its frames. -/
theorem TwoRuns.agree_laterCall
    (holds : Invariant.within.Holds store)
    (precedes : store.Precedes after)
    (keeps : store.Keeps after)
    {function : Value}
    (functionWithin : function.Within store)
    {arguments : List Value}
    (argumentsWithin : ∀ argument ∈ arguments, argument.Within store)
    (depth : Nat) :
    (laterRun precedes).OutcomesAgree (.diagonal store)
      (Value.Matches (laterRun precedes).toTranslation)
      ((Call.apply (eval depth) function arguments).outcome store)
      ((Call.apply (eval depth) function arguments).outcome after) := by
  have matches_self {value : Value} (within : value.Within store) :
      value.Matches (laterRun precedes).toTranslation (.diagonal store) value :=
    Value.matches_self (laterRun_fixes precedes) (Pairing.diagonal_covers store) within
  apply TwoRuns.agree_apply ((laterRun precedes).isFaithful_eval depth)
  · exact matches_self functionWithin
  · exact List.forall₂_same.2 fun argument member => matches_self (argumentsWithin argument member)
  · exact corresponds_laterRun holds precedes keeps

end

namespace Store

/-- The numbers of functions that are made from one store on, counted from a later store on. -/
def laterFunction (store after : Store) : Nat → Nat :=
  shiftFrom store.functions (after.functions - store.functions)

/-- The numbers of frames that are made from one store on, counted from a later store on. -/
def laterFrame (store after : Store) : FrameId → FrameId :=
  shiftFrom store.nextFrame (after.nextFrame - store.nextFrame)

end Store

/--
Let a function that has been made be applied to arguments in a reachable store, and
let the call end.  If the call is repeated in the store that it leaves, it writes the
same text and ends with the same fault or the same value, but that functions and
frames which the calls make are numbered on.  To every depth, the repeated call is
too deep if and only if the first one is.
-/
theorem calls_repeat
    (depth : Nat)
    {store after : Store}
    (reachable : store.Reachable)
    {function : Value}
    (functionWithin : function.Within store)
    {arguments : List Value}
    (argumentsWithin : ∀ argument ∈ arguments, argument.Within store)
    {outcome : Except Fault Value}
    (ends : (Call.apply (eval depth) function arguments).outcome store = some (outcome, after)) :
    (∃ text last,
        after.output = store.output ++ text ∧
          (Call.apply (eval depth) function arguments).outcome after =
              some
                (outcome.map
                    (Value.renumber (store.laterFunction after) (store.laterFrame after)),
                  last) ∧
            last.output = after.output ++ text) ∧
      ∀ budget,
        (Call.apply (eval budget) function arguments).outcome after = none ↔
          (Call.apply (eval budget) function arguments).outcome store = none := by
  have precedes : store.Precedes after :=
    (Invariant.maintains_apply (Invariant.maintains_eval .within depth) functionWithin
      argumentsWithin reachable.holds _ _ ends).1
  have keeps : store.Keeps after :=
    (isConfined_eval depth).respects_apply function arguments _ _ _ ends
  have agree :=
    TwoRuns.agree_laterCall reachable.holds precedes keeps functionWithin argumentsWithin
  constructor
  · have ended := agree depth
    rw [ends] at ended
    generalize (Call.apply (eval depth) function arguments).outcome after = again at ended ⊢
    cases ended with
    | @ended wider _ last _ other widens corresponds resultsAgree =>
        obtain ⟨functions, frames, text, advances, advances'⟩ := corresponds.inStep
        refine ⟨text, last, advances.output, ?_, advances'.output⟩
        cases resultsAgree with
        | fault fault =>
            rw [(TwoRuns.laterRun_fixes precedes).fault_eq]
            rfl
        | result holds =>
            rw [Value.eq_renumber_of_alike rfl corresponds.allowed holds]
            rfl
  · intro budget
    have ended := agree budget
    generalize (Call.apply (eval budget) function arguments).outcome store = first at ended ⊢
    generalize (Call.apply (eval budget) function arguments).outcome after = again at ended ⊢
    cases ended with
    | tooDeep => exact Iff.rfl
    | ended => exact ⟨nofun, nofun⟩

/-- A function that keeps its argument in the frame of the call, writes it, and makes a function. -/
def keepingFunction : Value :=
  .closure 0 ⟨["x"], none⟩
    (.list
      [.symbol "do", .list [.symbol "def!", .symbol "kept", .symbol "x"],
        .list [.symbol "prn", .symbol "kept"],
        .list [.symbol "fn*", .vector [], .symbol "kept"]])
    (some 0)

theorem calls_repeat_of_keeping_function :
    ∃ function after last,
      (Call.apply (eval 4) keepingFunction [.keyword "a"]).outcome (Session.enter .empty) =
          some (.ok function, after) ∧
        (Call.apply (eval 4) keepingFunction [.keyword "a"]).outcome after =
            some
              (.ok
                  (function.renumber ((Session.enter .empty).laterFunction after)
                    ((Session.enter .empty).laterFrame after)),
                last) ∧
          function.readable = "#<function>" ∧ after.output = ":a\n" ∧
            last.output = ":a\n:a\n" := by
  have body : (Value.components keepingFunction).all
      (·.everywhere fun part => !part.isFunction) = true := by decide
  have within : keepingFunction.Within (Session.enter .empty) := by
    constructor
    · refine ⟨by decide +kernel, ?_⟩
      rintro frame ⟨⟩
      decide +kernel
    · intro component member
      exact Value.within_of_no_function _ (List.all_eq_true.1 body component member)
  have argumentWithin :
      ∀ argument ∈ [Value.keyword "a"], argument.Within (Session.enter .empty) := by
    intro argument member
    cases List.mem_singleton.1 member
    exact Value.within_of_no_function _ (by decide)
  have ended :
      ((Call.apply (eval 4) keepingFunction [.keyword "a"]).outcome (Session.enter .empty)).map
          (fun ending => (ending.1.map Value.readable, ending.2.output)) =
        some (.ok "#<function>", ":a\n") := by decide +kernel
  obtain ⟨⟨outcome, after⟩, ends, observed⟩ := Option.map_eq_some_iff.1 ended
  obtain ⟨text, last, wrote, again, wroteAgain⟩ :=
    (calls_repeat 4 Store.Reachable.empty.enter within argumentWithin ends).1
  cases outcome with
  | error fault => cases observed
  | ok function =>
      obtain ⟨shown, output⟩ := Prod.mk.inj observed
      have nothing : (Session.enter .empty).output = "" := by decide +kernel
      dsimp only at output
      rw [output, nothing, String.empty_append] at wrote
      rw [output, ← wrote] at wroteAgain
      exact ⟨function, after, last, ends, again, Except.ok.inj shown, output, wroteAgain⟩

end MiniLisp
