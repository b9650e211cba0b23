import MiniLisp.Builtin.Result
import Mathlib.Data.List.Perm.Basic

/-!
# Arithmetic in exact integers

This module compares the arithmetic of the language with that of the integers.  The fold
of an operation over its operands succeeds exactly if all of them are numbers, no divisor
is zero and every value that the fold passes in exact integers is in range; its result is
the exact one then.  A total in range does not help if a value on the way is not.

Otherwise the fold stops at its leftmost step that fails, with a fault that depends on the
running value and on the operand of this step alone (`arithmetic_result_iff`).
-/

namespace MiniLisp

namespace Integer

/-- The integer is the value of a number of the language. -/
def IsInRange (value : Int) : Prop :=
  least ≤ value ∧ value ≤ greatest

theorem isInRange_toInt (number : Int64) :
    IsInRange number.toInt := by
  have lower := Int64.le_toInt number
  have upper := Int64.toInt_lt number
  unfold IsInRange least greatest
  omega

theorem ofInt?_eq_some_iff
    {value : Int}
    {number : Int64} :
    ofInt? value = some number ↔ number.toInt = value := by
  constructor
  · intro made
    unfold ofInt? at made
    split at made
    · next inRange =>
        cases made
        unfold least greatest at inRange
        exact Int64.toInt_ofInt_of_le (by omega) (by omega)
    · cases made
  · rintro rfl
    exact ofInt?_toInt number

theorem ofInt?_eq_none_iff {value : Int} :
    ofInt? value = none ↔ ¬ IsInRange value := by
  unfold ofInt? IsInRange
  split <;> simp_all

theorem exists_toInt_eq
    {value : Int}
    (inRange : IsInRange value) :
    ∃ number : Int64, number.toInt = value := by
  cases made : ofInt? value with
  | none => exact absurd inRange (ofInt?_eq_none_iff.1 made)
  | some number => exact ⟨number, ofInt?_eq_some_iff.1 made⟩

end Integer

namespace Builtin

theorem multiary_of_short
    (name : String)
    (result : Value → List Value → Except Fault Value)
    {arguments : List Value}
    (short : arguments.length < 2) :
    multiary name result arguments = .error (.arity name (.atLeast 2) arguments.length) := by
  unfold multiary
  split
  · simp only [List.length_cons] at short
    omega
  · rfl

theorem multiary_of_ne_nil
    (name : String)
    (result : Value → List Value → Except Fault Value)
    (first : Value)
    {rest : List Value}
    (several : rest ≠ []) :
    multiary name result (first :: rest) = result first rest := by
  cases rest with
  | nil => exact absurd rfl several
  | cons second rest => rfl

theorem short_or_exists_cons (arguments : List Value) :
    arguments.length < 2 ∨ ∃ first rest, rest ≠ [] ∧ arguments = first :: rest := by
  match arguments with
  | [] => exact Or.inl (by simp)
  | [only] => exact Or.inl (by simp)
  | first :: second :: rest =>
      exact Or.inr ⟨first, second :: rest, List.cons_ne_nil second rest, rfl⟩

end Builtin

namespace Operation

/-- The function of the language that folds the operation over its arguments. -/
def builtin : Operation → Builtin
  | addition => .add
  | subtraction => .subtract
  | multiplication => .multiply
  | division => .divide

theorem result_builtin
    (operation : Operation)
    (arguments : List Value) :
    operation.builtin.result arguments =
      Builtin.multiary operation.builtin.name operation.fold arguments := by
  cases operation <;> rfl

/-! ## Exact folds -/

/--
The fold of the operation over operands comes to a result in exact integers, without a
zero divisor and without a value out of range.
-/
structure FoldsTo
    (operation : Operation)
    (first : Int)
    (operands : List Int)
    (result : Int) :
    Prop where
  divisors : operation = division → 0 ∉ operands
  inRange : ∀ value ∈ operands.scanl operation.exact first, Integer.IsInRange value
  exact : operands.foldl operation.exact first = result

theorem FoldsTo.first_inRange
    {operation : Operation}
    {first result : Int}
    {operands : List Int}
    (folds : operation.FoldsTo first operands result) :
    Integer.IsInRange first := by
  apply folds.inRange
  cases operands <;> simp

theorem foldsTo_nil_iff
    {operation : Operation}
    {first result : Int} :
    operation.FoldsTo first [] result ↔ Integer.IsInRange first ∧ first = result := by
  constructor
  · rintro ⟨-, inRange, rfl⟩
    exact ⟨inRange first (by simp), rfl⟩
  · rintro ⟨inRange, rfl⟩
    exact ⟨fun _ => List.not_mem_nil, by simpa using inRange, rfl⟩

theorem foldsTo_cons_iff
    {operation : Operation}
    {first operand result : Int}
    {operands : List Int} :
    operation.FoldsTo first (operand :: operands) result ↔
      Integer.IsInRange first ∧ ¬ (operation = division ∧ operand = 0) ∧
        operation.FoldsTo (operation.exact first operand) operands result := by
  constructor
  · rintro ⟨divisors, inRange, exact⟩
    rw [List.scanl_cons, List.forall_mem_cons] at inRange
    refine ⟨inRange.1, ?_, ?_, inRange.2, exact⟩
    · rintro ⟨isDivision, rfl⟩
      exact divisors isDivision List.mem_cons_self
    · intro isDivision member
      exact divisors isDivision (List.mem_cons_of_mem operand member)
  · rintro ⟨firstInRange, noZero, divisors, inRange, exact⟩
    constructor
    · intro isDivision member
      rcases List.mem_cons.1 member with isZero | later
      · exact noZero ⟨isDivision, isZero.symm⟩
      · exact divisors isDivision later
    · rw [List.scanl_cons, List.forall_mem_cons]
      exact ⟨firstInRange, inRange⟩
    · exact exact

/-! ## Single steps -/

/-- The faults of a step, the first one that applies. -/
inductive StepFails (operation : Operation) : Value → Value → Fault → Prop where
  /-- One of the two values is no number. -/
  | operands
      {running operand : Value}
      (notBoth : ¬ ∃ left right, running = .number left ∧ operand = .number right) :
      StepFails operation running operand
        (.operands operation.title running.describe operand.describe)
  | divideByZero
      (isDivision : operation = division)
      (left : Int64) :
      StepFails operation (.number left) (.number 0)
        (.arithmetic operation.title .divideByZero)
  | overflow
      {left right : Int64}
      (noZero : ¬ (operation = division ∧ right = 0))
      (outOfRange : ¬ Integer.IsInRange (operation.exact left.toInt right.toInt)) :
      StepFails operation (.number left) (.number right)
        (.arithmetic operation.title .overflow)

theorem step_of_not_numbers
    (operation : Operation)
    {running operand : Value}
    (notBoth : ¬ ∃ left right, running = .number left ∧ operand = .number right) :
    operation.step running operand =
      .error (.operandValues operation.title running operand) := by
  unfold step
  split
  · next left right => exact absurd ⟨left, right, rfl, rfl⟩ notBoth
  · rfl

theorem step_eq_error_iff
    {operation : Operation}
    {running operand : Value}
    {fault : Fault} :
    operation.step running operand = .error fault ↔
      operation.StepFails running operand fault := by
  constructor
  · intro failed
    by_cases both : ∃ left right, running = .number left ∧ operand = .number right
    · obtain ⟨left, right, rfl, rfl⟩ := both
      rw [step, apply] at failed
      split at failed
      · next zero =>
          obtain ⟨isDivision, rfl⟩ := zero
          cases failed
          exact .divideByZero isDivision left
      · next noZero =>
          split at failed
          · cases failed
          · next outOfRange =>
              cases failed
              exact .overflow noZero (Integer.ofInt?_eq_none_iff.1 outOfRange)
    · rw [step_of_not_numbers operation both] at failed
      cases failed
      exact .operands both
  · intro fails
    cases fails with
    | operands notBoth => exact operation.step_of_not_numbers notBoth
    | divideByZero isDivision left =>
        rw [step, apply, if_pos ⟨isDivision, rfl⟩]
        rfl
    | overflow noZero outOfRange =>
        rw [step, apply, if_neg noZero, Integer.ofInt?_eq_none_iff.2 outOfRange]
        rfl

/-- A step that succeeds combines two numbers, and its result is the exact one. -/
theorem step_eq_ok_iff
    {operation : Operation}
    {running operand next : Value} :
    operation.step running operand = .ok next ↔
      ∃ left right result,
        running = .number left ∧ operand = .number right ∧ next = .number result ∧
          ¬ (operation = division ∧ right = 0) ∧
            result.toInt = operation.exact left.toInt right.toInt := by
  constructor
  · intro made
    by_cases both : ∃ left right, running = .number left ∧ operand = .number right
    · obtain ⟨left, right, rfl, rfl⟩ := both
      rw [step, apply] at made
      split at made
      · cases made
      · next noZero =>
          split at made
          · next result inRange =>
              cases made
              exact ⟨left, right, result, rfl, rfl, rfl, noZero,
                Integer.ofInt?_eq_some_iff.1 inRange⟩
          · cases made
    · rw [step_of_not_numbers operation both] at made
      cases made
  · rintro ⟨left, right, result, rfl, rfl, rfl, noZero, exact⟩
    rw [step, apply, if_neg noZero, Integer.ofInt?_eq_some_iff.2 exact]
    rfl

/-! ## Folds -/

theorem fold_cons_eq_ok_iff
    {operation : Operation}
    {running operand value : Value}
    {operands : List Value} :
    operation.fold running (operand :: operands) = .ok value ↔
      ∃ next, operation.step running operand = .ok next ∧
        operation.fold next operands = .ok value := by
  rw [fold]
  cases operation.step running operand <;> simp

/-- The fold from a number on succeeds exactly if it does in exact integers. -/
theorem fold_number_eq_ok_iff
    {operation : Operation}
    {first : Int64}
    {operands : List Value}
    {value : Value} :
    operation.fold (.number first) operands = .ok value ↔
      ∃ (numbers : List Int64) (last : Int64),
        operands = numbers.map .number ∧ value = .number last ∧
          operation.FoldsTo first.toInt (numbers.map Int64.toInt) last.toInt := by
  induction operands generalizing first with
  | nil =>
      constructor
      · rintro ⟨⟩
        exact ⟨[], first, rfl, rfl, foldsTo_nil_iff.2 ⟨Integer.isInRange_toInt first, rfl⟩⟩
      · rintro ⟨numbers, last, isEmpty, rfl, folds⟩
        obtain rfl := List.map_eq_nil_iff.1 isEmpty.symm
        rw [Int64.toInt_inj.1 (foldsTo_nil_iff.1 folds).2]
        rfl
  | cons operand operands ih =>
      rw [fold_cons_eq_ok_iff]
      constructor
      · rintro ⟨next, made, rest⟩
        obtain ⟨left, right, result, ⟨⟩, rfl, rfl, noZero, exact⟩ := step_eq_ok_iff.1 made
        obtain ⟨numbers, last, rfl, rfl, folds⟩ := ih.1 rest
        refine ⟨right :: numbers, last, rfl, rfl, ?_⟩
        rw [List.map_cons, foldsTo_cons_iff, ← exact]
        refine ⟨Integer.isInRange_toInt first, ?_, folds⟩
        rintro ⟨isDivision, isZero⟩
        exact noZero ⟨isDivision, Int64.toInt_inj.1 isZero⟩
      · rintro ⟨numbers, last, whole, rfl, folds⟩
        obtain ⟨right, others, rfl, rfl, rfl⟩ := List.map_eq_cons_iff.1 whole.symm
        rw [List.map_cons, foldsTo_cons_iff] at folds
        obtain ⟨-, noZero, folds⟩ := folds
        -- The exact result of the step is in range, so it is the value of a number.
        obtain ⟨result, exact⟩ := Integer.exists_toInt_eq folds.first_inRange
        rw [← exact] at folds
        refine ⟨.number result, step_eq_ok_iff.2 ?_, ih.2 ⟨others, last, rfl, rfl, folds⟩⟩
        refine ⟨first, right, result, rfl, rfl, rfl, ?_, exact⟩
        rintro ⟨isDivision, rfl⟩
        exact noZero ⟨isDivision, rfl⟩

/--
The fold comes to a running value: before the first operand to whatever stands there,
and later to the exact value of the numbers so far.
-/
def ComesTo
    (operation : Operation)
    (first : Value)
    (before : List Value)
    (running : Value) :
    Prop :=
  before = [] ∧ running = first ∨
    ∃ (number : Int64) (numbers : List Int64) (last : Int64),
      first = .number number ∧ before = numbers.map .number ∧ running = .number last ∧
        operation.FoldsTo number.toInt (numbers.map Int64.toInt) last.toInt

theorem fold_eq_ok_iff
    {operation : Operation}
    {first running : Value}
    {before : List Value} :
    operation.fold first before = .ok running ↔ operation.ComesTo first before running := by
  constructor
  · intro folded
    cases before with
    | nil =>
        cases folded
        exact Or.inl ⟨rfl, rfl⟩
    | cons operand before =>
        obtain ⟨next, made, -⟩ := fold_cons_eq_ok_iff.1 folded
        obtain ⟨number, _, _, rfl, -⟩ := step_eq_ok_iff.1 made
        obtain ⟨numbers, last, whole, isLast, folds⟩ := fold_number_eq_ok_iff.1 folded
        exact Or.inr ⟨number, numbers, last, rfl, whole, isLast, folds⟩
  · rintro (⟨rfl, rfl⟩ | ⟨number, numbers, last, rfl, rfl, rfl, folds⟩)
    · rfl
    · exact fold_number_eq_ok_iff.2 ⟨numbers, last, rfl, rfl, folds⟩

theorem fold_append
    (operation : Operation)
    (first : Value)
    (before after : List Value) :
    operation.fold first (before ++ after) =
      match operation.fold first before with
      | .ok running => operation.fold running after
      | .error fault => .error fault := by
  induction before generalizing first with
  | nil => rfl
  | cons operand before ih =>
      rw [List.cons_append, fold, fold]
      cases operation.step first operand with
      | ok next => exact ih next
      | error fault => rfl

/-- A fold fails exactly at its leftmost step that fails, whatever operands are left. -/
theorem fold_eq_error_iff
    {operation : Operation}
    {first : Value}
    {operands : List Value}
    {fault : Fault} :
    operation.fold first operands = .error fault ↔
      ∃ before running operand after,
        operands = before ++ operand :: after ∧
          operation.fold first before = .ok running ∧
            operation.step running operand = .error fault := by
  constructor
  · intro failed
    induction operands generalizing first with
    | nil => cases failed
    | cons operand operands ih =>
        rw [fold] at failed
        cases made : operation.step first operand with
        | ok next =>
            rw [made] at failed
            obtain ⟨before, running, failing, after, rfl, folded, failed⟩ := ih failed
            exact ⟨operand :: before, running, failing, after, rfl,
              fold_cons_eq_ok_iff.2 ⟨next, made, folded⟩, failed⟩
        | error found =>
            rw [made] at failed
            cases failed
            exact ⟨[], first, operand, operands, rfl, rfl, made⟩
  · rintro ⟨before, running, operand, after, rfl, folded, failed⟩
    rw [fold_append, folded]
    dsimp only
    rw [fold, failed]

/-! ## Other orders of the operands -/

theorem result_eq_ok_iff
    {operation : Operation}
    {arguments : List Value}
    {value : Value} :
    operation.builtin.result arguments = .ok value ↔
      ∃ (first : Int64) (numbers : List Int64) (last : Int64),
        numbers ≠ [] ∧ arguments = (first :: numbers).map .number ∧ value = .number last ∧
          operation.FoldsTo first.toInt (numbers.map Int64.toInt) last.toInt := by
  rw [result_builtin]
  constructor
  · intro made
    rcases Builtin.short_or_exists_cons arguments with short | ⟨first, rest, several, rfl⟩
    · rw [Builtin.multiary_of_short _ _ short] at made
      cases made
    · rw [Builtin.multiary_of_ne_nil _ _ first several] at made
      rcases fold_eq_ok_iff.1 made with
        ⟨isEmpty, -⟩ | ⟨number, numbers, last, rfl, rfl, isLast, folds⟩
      · exact absurd isEmpty several
      · refine ⟨number, numbers, last, ?_, rfl, isLast, folds⟩
        rintro rfl
        exact several rfl
  · rintro ⟨first, numbers, last, several, rfl, rfl, folds⟩
    have operands : numbers.map Value.number ≠ [] :=
      fun isEmpty => several (List.map_eq_nil_iff.1 isEmpty)
    rw [List.map_cons, Builtin.multiary_of_ne_nil _ _ _ operands]
    exact fold_number_eq_ok_iff.2 ⟨numbers, last, rfl, rfl, folds⟩

theorem result_eq_error_iff
    {operation : Operation}
    {arguments : List Value}
    {fault : Fault} :
    operation.builtin.result arguments = .error fault ↔
      arguments.length < 2 ∧
          fault = .arity operation.builtin.name (.atLeast 2) arguments.length ∨
        ∃ first before running operand after,
          arguments = first :: before ++ operand :: after ∧
            operation.ComesTo first before running ∧
              operation.StepFails running operand fault := by
  rw [result_builtin]
  constructor
  · intro failed
    rcases Builtin.short_or_exists_cons arguments with short | ⟨first, rest, several, rfl⟩
    · rw [Builtin.multiary_of_short _ _ short] at failed
      cases failed
      exact Or.inl ⟨short, rfl⟩
    · rw [Builtin.multiary_of_ne_nil _ _ first several, fold_eq_error_iff] at failed
      obtain ⟨before, running, operand, after, rfl, folded, failed⟩ := failed
      exact Or.inr ⟨first, before, running, operand, after, rfl, fold_eq_ok_iff.1 folded,
        step_eq_error_iff.1 failed⟩
  · rintro (⟨short, rfl⟩ | ⟨first, before, running, operand, after, rfl, comes, fails⟩)
    · exact Builtin.multiary_of_short _ _ short
    · have several : before ++ operand :: after ≠ [] := by simp
      rw [List.cons_append, Builtin.multiary_of_ne_nil _ _ first several, fold_eq_error_iff]
      exact ⟨before, running, operand, after, rfl, fold_eq_ok_iff.2 comes,
        step_eq_error_iff.2 fails⟩

end Operation

end MiniLisp
