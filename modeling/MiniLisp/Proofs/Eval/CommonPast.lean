import MiniLisp.Proofs.Eval.Correspondence
import MiniLisp.Proofs.Eval.Reachable

/-!
# Two runs with a common past

This module compares two runs that go on from one store.  Both know the functions
and the frames that have been made in the store by the same numbers; what the runs
make later may be numbered otherwise, and is then numbered higher by a constant
(`shiftFrom`).

Values that are within the store match themselves (`Value.alike_self`), and its
frames agree with themselves as long as both runs leave them as they were
(`FramesAgree.self`).
-/

namespace MiniLisp

/-! ## Shifted numbers -/

/-- The numbers below a start stay, and all others grow by a constant. -/
def shiftFrom (start constant number : Nat) : Nat :=
  if number < start then number else number + constant

theorem shiftFrom_of_lt
    {start number : Nat}
    (constant : Nat)
    (below : number < start) :
    shiftFrom start constant number = number :=
  if_pos below

theorem shiftFrom_start_add
    (start constant number : Nat) :
    shiftFrom start constant (start + number) = start + constant + number := by
  rw [shiftFrom, if_neg (Nat.not_lt.2 (Nat.le_add_right start number))]
  omega

theorem strictMono_shiftFrom
    (start constant : Nat) :
    StrictMono (shiftFrom start constant) := by
  intro first second below
  unfold shiftFrom
  split <;> split <;> omega

/-- The translation that keeps all names and shifts the numbers of later functions. -/
def Translation.shift (start constant : Nat) : Translation where
  __ := Translation.same
  function := shiftFrom start constant
  function_strictMono := strictMono_shiftFrom start constant

/-! ## What both runs know -/

/-- Names and the functions of a store are called the same in both runs. -/
structure Translation.Fixes (translation : Translation) (store : Store) : Prop where
  name : ∀ name, translation.name name = name
  function : ∀ identity, identity < store.functions → translation.function identity = identity

theorem Translation.shift_fixes
    (store : Store)
    (constant : Nat) :
    (shift store.functions constant).Fixes store where
  name := fun _ => rfl
  function := fun _ made => shiftFrom_of_lt constant made

/-- All names, for frames in which neither run is to bind any. -/
def Scope.readOnly : Scope := ⟨fun _ => True, False⟩

/-- The frames of a store stand for themselves. -/
def Pairing.CoversFrames (pairing : Pairing) (store : Store) : Prop :=
  ∀ frame, frame < store.nextFrame → pairing frame frame Scope.readOnly

/-- The frames of a store, each paired with itself, and nothing else. -/
def Pairing.diagonal (store : Store) : Pairing :=
  fun left right scope => left < store.nextFrame ∧ right = left ∧ scope = Scope.readOnly

theorem Pairing.diagonal_covers (store : Store) :
    (diagonal store).CoversFrames store :=
  fun _ made => ⟨made, rfl, rfl⟩

variable
  {translation : Translation}
  {pairing : Pairing}
  {store : Store}

theorem Pairing.CoversFrames.homes
    (covers : pairing.CoversFrames store)
    {home : Option FrameId}
    (made : ∀ frame, home = some frame → frame < store.nextFrame) :
    pairing.Homes home home Scope.readOnly := by
  cases home with
  | none => exact .homeless Scope.readOnly
  | some frame => exact .paired (covers frame (made frame rfl))

theorem Translation.Fixes.rename_eq
    (fixes : translation.Fixes store)
    (parameters : Parameters) :
    parameters.rename translation.name = parameters := by
  have same : translation.name = id := funext fixes.name
  rw [same, parameters.rename_id]

theorem Translation.Fixes.fault_eq
    (fixes : translation.Fixes store)
    (fault : Fault) :
    fault.rename translation.name = fault := by
  have same : translation.name = id := funext fixes.name
  rw [same, fault.rename_id]

/-- What can be seen of an action: its fault or the text of its value, and all text written. -/
def Action.shown (action : Action Value) (store : Store) : Option (Except Fault String × String) :=
  (action.outcome store).map fun ending => (ending.1.map Value.readable, ending.2.output)

/-- Actions that agree show the same if the runs start with the same text and keep all names. -/
theorem TwoRuns.OutcomesAgree.shown_eq
    {runs : TwoRuns}
    {action other : Action Value}
    {first second : Store}
    (agree :
      runs.OutcomesAgree pairing (Value.Matches runs.toTranslation)
        (action.outcome first) (other.outcome second))
    (start : runs.left.output = runs.right.output)
    (fixes : runs.Fixes store) :
    other.shown second = action.shown first := by
  unfold Action.shown
  generalize action.outcome first = outcome at agree ⊢
  generalize other.outcome second = outcome' at agree ⊢
  cases agree with
  | tooDeep => rfl
  | ended widens corresponds resultsAgree =>
      have sameOutput := corresponds.output_eq start
      cases resultsAgree with
      | fault fault => simp [fixes.fault_eq, sameOutput]
      | result holds => simp [Except.map, holds.readable_eq, sameOutput]

namespace Value

/-- The symbol does not occur in the value, nor in its parts at any depth. -/
def omits (name : String) (value : Value) : Bool :=
  value.everywhere fun
    | symbol other => other != name
    | _ => true

theorem omits_part
    {name : String}
    {part value : Value}
    (omitted : value.omits name = true)
    (member : part ∈ value.parts) :
    part.omits name = true :=
  (everywhere_iff.1 omitted).2 part member

/-- What is within the store is like itself, for a range of names with all its symbols. -/
theorem alike_self
    (fixes : translation.Fixes store)
    (covers : pairing.CoversFrames store)
    {names : String → Prop}
    {value : Value}
    (within : value.Within store)
    (ranges : ∀ name, ¬ names name → value.omits name = true) :
    value.Alike translation pairing names value := by
  induction value using induction_on_components generalizing names with
  | step value ih =>
      have inParts (part : Value) (member : part ∈ value.parts) :
          part.Alike translation pairing names part :=
        ih part (mem_components_of_mem_parts member) (within.parts member)
          fun name noName => omits_part (ranges name noName) member
      cases value with
      | symbol name =>
          refine alike_symbol_iff.2 ⟨?_, by rw [fixes.name]⟩
          by_contra noName
          have omitted := (everywhere_iff.1 (ranges name noName)).1
          exact absurd rfl (bne_iff_ne.1 omitted)
      | list items =>
          exact alike_list_iff.2 ⟨items, rfl, List.forall₂_same.2 inParts⟩
      | vector items =>
          exact alike_vector_iff.2 ⟨items, rfl, List.forall₂_same.2 inParts⟩
      | map entries =>
          refine alike_map_iff.2 ⟨entries, rfl, List.forall₂_same.2 fun entry member => ⟨?_, ?_⟩⟩
          · exact inParts entry.1 (Entries.key_mem_items member)
          · exact inParts entry.2 (Entries.value_mem_items member)
      | closure identity parameters body home =>
          obtain ⟨made, homeMade⟩ := within.here
          refine alike_closure_iff.2 ⟨body, home, Scope.readOnly, ?_, covers.homes homeMade, ?_⟩
          · rw [fixes.function identity made, fixes.rename_eq]
          · exact ih body (List.mem_singleton_self body) within.body
              fun _ noName => absurd trivial noName
      | native identity routine =>
          exact alike_native_iff.2 (by rw [fixes.function identity within.here])
      | _ => rfl

theorem matches_self
    (fixes : translation.Fixes store)
    (covers : pairing.CoversFrames store)
    {value : Value}
    (within : value.Within store) :
    value.Matches translation pairing value :=
  alike_self fixes covers within fun name noName => absurd (fixes.name name) noName

end Value

/-- Where both runs keep the frames of the store, the frames agree with themselves. -/
theorem FramesAgree.self
    (fixes : translation.Fixes store)
    (covers : pairing.CoversFrames store)
    (holds : Invariant.within.Holds store)
    {first second : Store}
    (keepsFirst : store.Keeps first)
    (keepsSecond : store.Keeps second)
    {frame : FrameId}
    (made : frame < store.nextFrame) :
    FramesAgree translation pairing first second frame frame Scope.readOnly := by
  obtain ⟨content, found⟩ := Store.exists_frame?_of_lt made
  apply FramesAgree.alike (keepsFirst frame content found) (keepsSecond frame content found)
  · intro name _
    rw [fixes.name]
    cases bound : content.bindings.get? name with
    | none => exact .none
    | some value => exact .some (Value.matches_self fixes covers (holds.bound found bound))
  · cases child : content.parent with
    | none => exact .none
    | some parent =>
        have older := holds.parent found child
        exact .some
          ⟨older, older, Scope.readOnly, covers parent (Nat.lt_trans older made),
            fun _ _ => trivial⟩

end MiniLisp
