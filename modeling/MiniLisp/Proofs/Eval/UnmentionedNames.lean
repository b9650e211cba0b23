import MiniLisp.Proofs.Eval.OneName
import MiniLisp.Proofs.Eval.OneRun
import MiniLisp.Proofs.Value.AscendingEntries
import MiniLisp.Session

/-!
# Names that are not mentioned

This module shows that the value of a name which a program does not mention makes no
difference, and that binding a name does not change the special form that it starts.

Two stores that differ in the values of the name alone are led through the same
evaluation.  Every step of evaluation is blind to the name (`Assessment.blindness`).  As
both runs make the same functions and the same frames, their results are not only alike
but equal (`eval_rebind`).
-/

namespace MiniLisp

namespace Value

variable {name : String}

theorem spares_of_mem_tail_items?
    {bindings : Value}
    {items : List Value}
    (sequence : bindings.items? = some items)
    (spares : bindings.spares name = true)
    {item : Value}
    (member : item ∈ items.tail) :
    item.spares name = true := by
  cases bindings with
  | list whole =>
      cases sequence
      cases items with
      | nil => cases member
      | cons head parts => exact (spares_list_iff.1 spares).2 item member
  | vector whole =>
      cases sequence
      exact sparesParts_iff.1 spares item (List.mem_of_mem_tail member)
  | _ => cases sequence

theorem HasLocalForm.mem_tail
    {items : List Value}
    {form : Value}
    (among : HasLocalForm items form) :
    form ∈ items.tail := by
  induction among with
  | first => simp
  | later target other among ih => simp [List.mem_of_mem_tail ih]

/--
The first item of a special form is not evaluated, whatever is bound to it; and the first
of the items between which local forms stand is a target.
-/
theorem HasPart.spares
    {form part : Value}
    {role : Role}
    (isPart : form.HasPart role part)
    (noTarget : role ≠ .target)
    (spares : form.spares name = true) :
    part.spares name = true := by
  cases isPart with
  | symbol => exact spares
  | comment => rfl
  | constant => exact spares
  | item member => exact sparesParts_iff.1 spares part member
  | key member => exact (sparesEntries_iff.1 spares _ member).1
  | entry member => exact (sparesEntries_iff.1 spares _ member).2
  | called plain member =>
      obtain ⟨atHead, atParts⟩ := spares_list_iff.1 spares
      rcases List.mem_cons.1 member with rfl | later
      · rw [plain] at atHead
        simpa using atHead
      · exact atParts part later
  | target => exact absurd rfl noTarget
  | defined => exact (spares_list_iff.1 spares).2 _ (by simp)
  | step _ member => exact (spares_list_iff.1 spares).2 _ member
  | branch _ _ member => exact (spares_list_iff.1 spares).2 _ member
  | @localForm head bindings _ _ _ sequence among body =>
      have sparesBindings := (spares_list_iff.1 spares).2 bindings (by simp)
      exact spares_of_mem_tail_items? sequence sparesBindings among.mem_tail
  | localBody => exact (spares_list_iff.1 spares).2 _ (by simp)
  | functionBody => exact (spares_list_iff.1 spares).2 _ (by simp)

/-- A value that evaluates to itself is spare if it spares the name as a form. -/
theorem closuresSpare_of_isConstant
    {constant : Value}
    (spares : constant.spares name = true)
    (isConstant : constant.isConstant = true) :
    constant.closuresSpare name = true := by
  cases constant with
  | closure => exact spares
  | symbol => rfl
  | comment => rfl
  | list => cases isConstant
  | vector => cases isConstant
  | map => cases isConstant
  | _ => rfl

end Value

/-- What is evaluated, now or in a call, spares the name. -/
def OneRun.sparing (name : String) : OneRun where
  may := fun _ _ role part =>
    match role with
    | .target => True
    | _ => part.spares name = true
  may_mono := fun _ may => may
  good := fun _ => Value.IsSpare name
  good_mono := fun _ spare => spare
  good_of_yields := Value.closuresSpare_of_yields
  good_vector := fun spare => Value.closuresSpare_of_parts rfl spare
  good_map := fun spare => Value.closuresSpare_of_parts rfl (Entries.forall_items_ofPairs spare)
  good_constant := Value.closuresSpare_of_isConstant
  closure := fun spare => ⟨trivial, spare⟩

/-- Actions are blind to the name. -/
def Assessment.blindness (name : String) : Assessment where
  toOneRun := .sparing name
  holds := fun _ property action => action.IsBlindTo name (property ())
  pure := .pure
  fail := fun _ _ => .fail _
  bind := fun blind rest => blind.bind fun result has => rest () result trivial has
  lookup := fun spares => .lookup _ (bne_iff_ne.1 spares)
  define := fun _ spare => .define _ _ spare
  openFrame := by
    intro world frame pairs _ spare
    apply Action.IsBlindTo.openFrame frame
    · exact fun other value bound => spare _ (Bindings.mem_of_get?_ofPairs bound)
    · exact fun inner => ⟨trivial, id, fun _ => trivial⟩
  makeClosure := fun _ _ spares => .makeClosure _ spares _
  write := .write

theorem isBlindTo_eval
    (name : String)
    (depth : Nat) :
    Evaluator.IsBlindTo name (eval depth) := by
  have passes : (Assessment.blindness name).PassesToParts := by
    intro _ _ form spares role part isPart
    cases role with
    | target => trivial
    | _ => exact isPart.spares nofun spares
  have evaluates : (Assessment.blindness name).Evaluates (eval depth) :=
    Assessment.evaluates_eval passes (fun _ _ _ _ => .none) depth
  exact fun frame form spares => evaluates () trivial spares

/--
Let a name stand in a form, and in the bodies of all closures that are bound to other
names, at most as the first item of special forms.  If the name is bound to any values in
any frames before the form is evaluated, then to every depth the evaluation is too deep
with the new values if and only if it is with the old ones; it ends with the same fault or
the same value and with the same text written; and all frames are left with the same
bindings of all other names.
-/
theorem eval_rebind
    (depth : Nat)
    (frame : FrameId)
    {name : String}
    {form : Value}
    (spares : form.spares name = true)
    {store : Store}
    (spare : store.ClosuresSpare name)
    (changes : List (FrameId × Value)) :
    Option.Rel
      (fun ending other => other.1 = ending.1 ∧ ending.2.SameBut name other.2)
      ((eval depth frame form).outcome store)
      ((eval depth frame form).outcome (store.rebind name changes)) := by
  have differs : store.DiffersUnseen name (store.rebind name changes) :=
    ⟨store.sameBut_rebind name changes, spare⟩
  have ends := isBlindTo_eval name depth frame form spares _ _ differs
  generalize (eval depth frame form).outcome store = outcome at ends ⊢
  generalize (eval depth frame form).outcome (store.rebind name changes) = outcome' at ends ⊢
  cases ends with
  | none => exact .none
  | some same => exact .some ⟨same.result, same.differs.toSameBut⟩

/-- A fresh session with a function whose body is a sequence. -/
def storeWithSequence : Store :=
  (Session.enter .empty).define 0 "f"
    (.closure 20 ⟨["x"], none⟩
      (.list
        [.symbol "do", .list [.symbol "prn", .symbol "x"],
          .list [.symbol "def!", .symbol "y", .symbol "x"]])
      (some 0))

/-- A sequence of a call of the function and a definition. -/
def sequenceForm : Value :=
  .list
    [.symbol "do", .list [.symbol "f", .keyword "a"],
      .list [.symbol "def!", .symbol "y", .number 2]]

/-- The symbol of sequences may be bound to a function that would fail. -/
theorem eval_rebind_of_sequence :
    ∃ value after other,
      (eval 5 0 sequenceForm).outcome storeWithSequence = some (.ok value, after) ∧
        (eval 5 0 sequenceForm).outcome
            (storeWithSequence.rebind "do"
              [(0, .closure 7 ⟨[], none⟩ (.symbol "do") (some 0)), (0, .nil)]) =
          some (.ok value, other) ∧
        value.readable = "2" ∧ after.output = ":a\n" ∧ after.SameBut "do" other := by
  have spare : storeWithSequence.ClosuresSpare "do" :=
    Store.closuresSpare_of_all (by decide +kernel)
  have ends :
      ((eval 5 0 sequenceForm).outcome storeWithSequence).map
          (fun ending => (ending.1.toOption.map Value.readable, ending.2.output)) =
        some (some "2", ":a\n") := by decide +kernel
  have same :=
    eval_rebind 5 0 (by decide : sequenceForm.spares "do" = true) spare
      [(0, .closure 7 ⟨[], none⟩ (.symbol "do") (some 0)), (0, .nil)]
  obtain ⟨⟨outcome, after⟩, ended, observed⟩ := Option.map_eq_some_iff.1 ends
  obtain ⟨shown, output⟩ := Prod.mk.inj observed
  cases outcome with
  | error fault => cases shown
  | ok value =>
      rw [ended] at same
      generalize (eval 5 0 sequenceForm).outcome (storeWithSequence.rebind _ _) = ending at same ⊢
      cases same with
      | @some _ ending related =>
          obtain ⟨outcome, other⟩ := ending
          obtain ⟨rfl, sameBut⟩ := related
          exact ⟨value, after, other, ended, rfl, Option.some.inj shown, output, sameBut⟩

end MiniLisp
