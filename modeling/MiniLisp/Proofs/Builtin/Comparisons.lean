import MiniLisp.Proofs.Builtin.Arithmetic
import MiniLisp.Proofs.Value.Trees
import Mathlib.Data.List.Chain

/-!
# Comparisons of all pairs

This module compares the four comparisons of the language with the order of the integers.
A comparison looks at neighbours only.  As each of the four relations is transitive, this
decides it for every two of its arguments, the earlier one on the left.

All arguments are required to be numbers before the first two are compared, so an
argument that is none is a fault whatever the arguments in front of it are
(`comparison_result_iff`).
-/

namespace MiniLisp

/-! ## Required numbers -/

namespace Value

/-- The arguments are all numbers, or there is a first one that is none. -/
theorem exists_numbers_or_first_other (arguments : List Value) :
    (∃ numbers : List Int64, arguments = numbers.map .number) ∨
      ∃ (numbers : List Int64) (other : Value) (after : List Value),
        arguments = numbers.map .number ++ other :: after ∧
          ∀ integer, other ≠ .number integer := by
  induction arguments with
  | nil => exact Or.inl ⟨[], rfl⟩
  | cons argument arguments ih =>
      by_cases isNumber : ∃ integer, argument = .number integer
      · obtain ⟨integer, rfl⟩ := isNumber
        rcases ih with ⟨numbers, rfl⟩ | ⟨numbers, other, after, rfl, noNumber⟩
        · exact Or.inl ⟨integer :: numbers, rfl⟩
        · exact Or.inr ⟨integer :: numbers, other, after, rfl, noNumber⟩
      · exact Or.inr ⟨[], argument, arguments, rfl,
          fun integer same => isNumber ⟨integer, same⟩⟩

theorem requireNumbers_map
    (name : String)
    (numbers : List Int64) :
    requireNumbers name (numbers.map .number) = .ok numbers := by
  induction numbers with
  | nil => rfl
  | cons integer numbers ih =>
      rw [List.map_cons, requireNumbers, ih]
      rfl

/-- Of several arguments that are no numbers the first one is reported. -/
theorem requireNumbers_of_first_other
    (name : String)
    (numbers : List Int64)
    {other : Value}
    (noNumber : ∀ integer, other ≠ .number integer)
    (after : List Value) :
    requireNumbers name (numbers.map .number ++ other :: after) =
      .error (.unexpectedValue name "Number" other) := by
  induction numbers with
  | nil =>
      rw [List.map_nil, List.nil_append, requireNumbers]
      cases other with
      | number integer => exact absurd rfl (noNumber integer)
      | _ => rfl
  | cons integer numbers ih =>
      rw [List.map_cons, List.cons_append, requireNumbers, ih]
      rfl

theorem map_number_injective : Function.Injective (List.map Value.number) :=
  List.map_injective_iff.2 fun _ _ same => Value.number.inj same

end Value

namespace Comparison

/-! ## The relations of integers -/

/-- The order of integers that a comparison stands for. -/
def Relates : Comparison → Int → Int → Prop
  | less, left, right => left < right
  | atMost, left, right => left ≤ right
  | greater, left, right => left > right
  | atLeast, left, right => left ≥ right

instance (comparison : Comparison) :
    Trans comparison.Relates comparison.Relates comparison.Relates where
  trans := by
    intro first second third early late
    cases comparison with
    | less => exact Int.lt_trans early late
    | atMost => exact Int.le_trans early late
    | greater => exact Int.lt_trans late early
    | atLeast => exact Int.le_trans late early

/-- The comparison that holds of two numbers in the other order. -/
def converse : Comparison → Comparison
  | less => greater
  | atMost => atLeast
  | greater => less
  | atLeast => atMost

theorem relates_converse_iff
    (comparison : Comparison)
    (left right : Int) :
    comparison.converse.Relates left right ↔ comparison.Relates right left := by
  cases comparison <;> exact Iff.rfl

theorem converse_converse (comparison : Comparison) :
    comparison.converse.converse = comparison := by
  cases comparison <;> rfl

theorem holds_iff_relates
    (comparison : Comparison)
    (left right : Int64) :
    comparison.holds left right = true ↔ comparison.Relates left.toInt right.toInt := by
  cases comparison with
  | less => exact decide_eq_true_iff.trans Int64.lt_iff_toInt_lt
  | atMost => exact decide_eq_true_iff.trans Int64.le_iff_toInt_le
  | greater => exact decide_eq_true_iff.trans Int64.lt_iff_toInt_lt
  | atLeast => exact decide_eq_true_iff.trans Int64.le_iff_toInt_le

/-- The relation holds of every two numbers, the earlier one on the left. -/
def Sorts (comparison : Comparison) (numbers : List Int64) : Prop :=
  (numbers.map Int64.toInt).Pairwise comparison.Relates

/-- If all neighbours are in order, all pairs are. -/
theorem chain_iff_sorts
    (comparison : Comparison)
    (numbers : List Int64) :
    comparison.chain numbers = true ↔ comparison.Sorts numbers := by
  rw [Sorts, ← List.isChain_iff_pairwise]
  fun_induction chain comparison numbers with
  | case1 left right rest ih =>
      rw [Bool.and_eq_true, holds_iff_relates, ih]
      exact List.isChain_cons_cons.symm
  | case2 numbers short =>
      cases numbers with
      | nil => simp
      | cons only rest =>
          cases rest with
          | nil => simp
          | cons second rest => exact absurd rfl (short only second rest)

theorem sorts_reverse_iff
    (comparison : Comparison)
    (numbers : List Int64) :
    comparison.converse.Sorts numbers.reverse ↔ comparison.Sorts numbers := by
  rw [Sorts, List.map_reverse, List.pairwise_reverse]
  exact List.Pairwise.iff fun left right => comparison.relates_converse_iff right left

/-- Numbers that neither fall nor rise are all the same. -/
theorem sorts_both_ways_iff (numbers : List Int64) :
    atMost.Sorts numbers ∧ atLeast.Sorts numbers ↔ numbers.Pairwise (· = ·) := by
  rw [Sorts, Sorts, ← List.pairwise_and_iff, List.pairwise_map]
  apply List.Pairwise.iff
  intro left right
  rw [← Int64.toInt_inj]
  exact Int.le_antisymm_iff.symm

/-! ## The four functions -/

/-- The function of the language that compares its arguments. -/
def builtin : Comparison → Builtin
  | less => .less
  | atMost => .atMost
  | greater => .greater
  | atLeast => .atLeast

theorem result_builtin
    (comparison : Comparison)
    (arguments : List Value) :
    comparison.builtin.result arguments =
      Builtin.compareNumbers comparison.builtin.name comparison arguments := by
  cases comparison <;> rfl

theorem result_of_short
    (comparison : Comparison)
    {arguments : List Value}
    (short : arguments.length < 2) :
    comparison.builtin.result arguments =
      .error (.arity comparison.builtin.name (.atLeast 2) arguments.length) := by
  rw [result_builtin]
  exact Builtin.multiary_of_short _ _ short

theorem result_of_several
    (comparison : Comparison)
    {arguments : List Value}
    (several : 2 ≤ arguments.length) :
    comparison.builtin.result arguments =
      (Value.requireNumbers comparison.builtin.name arguments).map fun numbers =>
        .boolean (comparison.chain numbers) := by
  rw [result_builtin]
  match arguments, several with
  | _ :: _ :: _, _ => rfl

/-- With two numbers or more, the comparison says whether every two of them are in order. -/
theorem result_of_numbers
    (comparison : Comparison)
    {numbers : List Int64}
    (several : 2 ≤ numbers.length) :
    ∃ truth,
      comparison.builtin.result (numbers.map .number) = .ok (.boolean truth) ∧
        (truth = true ↔ comparison.Sorts numbers) := by
  refine ⟨comparison.chain numbers, ?_, comparison.chain_iff_sorts numbers⟩
  rw [comparison.result_of_several (by rwa [List.length_map]), Value.requireNumbers_map]
  rfl

/-- The first argument that is no number is a fault, whatever stands in front of it. -/
theorem result_of_first_other
    (comparison : Comparison)
    {numbers : List Int64}
    {other : Value}
    {after : List Value}
    (several : 2 ≤ (numbers.map Value.number ++ other :: after).length)
    (noNumber : ∀ integer, other ≠ .number integer) :
    comparison.builtin.result (numbers.map .number ++ other :: after) =
      .error (.unexpected comparison.builtin.name "Number" other.describe) := by
  rw [comparison.result_of_several several,
    Value.requireNumbers_of_first_other _ numbers noNumber after]
  rfl

theorem result_eq_ok_iff
    {comparison : Comparison}
    {arguments : List Value}
    {value : Value} :
    comparison.builtin.result arguments = .ok value ↔
      ∃ (numbers : List Int64) (truth : Bool),
        2 ≤ numbers.length ∧ arguments = numbers.map .number ∧ value = .boolean truth ∧
          (truth = true ↔ comparison.Sorts numbers) := by
  constructor
  · intro given
    by_cases short : arguments.length < 2
    · rw [comparison.result_of_short short] at given
      cases given
    · rw [Nat.not_lt] at short
      rcases Value.exists_numbers_or_first_other arguments with
        ⟨numbers, rfl⟩ | ⟨numbers, other, after, rfl, noNumber⟩
      · rw [List.length_map] at short
        obtain ⟨truth, made, isTrue⟩ := comparison.result_of_numbers short
        rw [made] at given
        cases given
        exact ⟨numbers, truth, short, rfl, rfl, isTrue⟩
      · rw [comparison.result_of_first_other short noNumber] at given
        cases given
  · rintro ⟨numbers, truth, several, rfl, rfl, isTrue⟩
    obtain ⟨other, made, isTrueOther⟩ := comparison.result_of_numbers several
    rw [made, Bool.eq_iff_iff.2 (isTrue.trans isTrueOther.symm)]

theorem result_eq_error_iff
    {comparison : Comparison}
    {arguments : List Value}
    {fault : Fault} :
    comparison.builtin.result arguments = .error fault ↔
      arguments.length < 2 ∧
          fault = .arity comparison.builtin.name (.atLeast 2) arguments.length ∨
        2 ≤ arguments.length ∧
          ∃ (numbers : List Int64) (other : Value) (after : List Value),
            arguments = numbers.map .number ++ other :: after ∧
              (∀ integer, other ≠ .number integer) ∧
                fault = .unexpected comparison.builtin.name "Number" other.describe := by
  constructor
  · intro failed
    by_cases short : arguments.length < 2
    · rw [comparison.result_of_short short] at failed
      cases failed
      exact Or.inl ⟨short, rfl⟩
    · rw [Nat.not_lt] at short
      rcases Value.exists_numbers_or_first_other arguments with
        ⟨numbers, rfl⟩ | ⟨numbers, other, after, rfl, noNumber⟩
      · rw [List.length_map] at short
        obtain ⟨truth, made, -⟩ := comparison.result_of_numbers short
        rw [made] at failed
        cases failed
      · rw [comparison.result_of_first_other short noNumber] at failed
        cases failed
        exact Or.inr ⟨short, numbers, other, after, rfl, noNumber, rfl⟩
  · rintro (⟨short, rfl⟩ | ⟨several, numbers, other, after, rfl, noNumber, rfl⟩)
    · exact comparison.result_of_short short
    · exact comparison.result_of_first_other several noNumber

/-! ## Relations between the functions -/

theorem result_map_eq_true_iff
    {comparison : Comparison}
    {numbers : List Int64} :
    comparison.builtin.result (numbers.map .number) = .ok (.boolean true) ↔
      2 ≤ numbers.length ∧ comparison.Sorts numbers := by
  rw [result_eq_ok_iff]
  constructor
  · rintro ⟨others, truth, several, same, isTruth, isTrue⟩
    obtain rfl := Value.map_number_injective same
    cases isTruth
    exact ⟨several, isTrue.1 rfl⟩
  · rintro ⟨several, sorts⟩
    exact ⟨numbers, true, several, rfl, rfl, iff_of_true rfl sorts⟩

/-- What a comparison says of its arguments, the converse one says of them in reverse. -/
theorem result_reverse_eq_ok
    {comparison : Comparison}
    {arguments : List Value}
    {value : Value}
    (given : comparison.builtin.result arguments = .ok value) :
    comparison.converse.builtin.result arguments.reverse = .ok value := by
  obtain ⟨numbers, truth, several, rfl, rfl, isTrue⟩ := result_eq_ok_iff.1 given
  refine result_eq_ok_iff.2 ⟨numbers.reverse, truth, ?_, ?_, rfl, ?_⟩
  · rwa [List.length_reverse]
  · rw [List.map_reverse]
  · exact isTrue.trans (comparison.sorts_reverse_iff numbers).symm

theorem result_reverse_eq_ok_iff
    {comparison : Comparison}
    {arguments : List Value}
    {value : Value} :
    comparison.builtin.result arguments = .ok value ↔
      comparison.converse.builtin.result arguments.reverse = .ok value := by
  constructor
  · exact result_reverse_eq_ok
  · intro given
    have again := result_reverse_eq_ok given
    rwa [converse_converse, List.reverse_reverse] at again

/-- The function `=` is true of two numbers or more exactly if all of them are the same. -/
theorem equal_result_map_eq_true_iff (numbers : List Int64) :
    Builtin.equal.result (numbers.map .number) = .ok (.boolean true) ↔
      2 ≤ numbers.length ∧ numbers.Pairwise (· = ·) := by
  match numbers with
  | [] => exact iff_of_false nofun (by simp)
  | [only] => exact iff_of_false nofun (by simp)
  | first :: second :: rest =>
      have several : 2 ≤ ((first :: second :: rest).map Value.number).length := by simp
      obtain ⟨truth, given, isTrue⟩ := Builtin.exists_equal_result several
      rw [given, Except.ok.injEq, Value.boolean.injEq, isTrue]
      constructor
      · rintro ⟨tree, same⟩
        refine ⟨by simp, List.pairwise_of_forall_mem_list ?_⟩
        intro left isLeft right isRight
        have sameLeft := same _ (List.mem_map_of_mem isLeft)
        have sameRight := same _ (List.mem_map_of_mem isRight)
        exact Tree.number.inj (sameLeft.trans sameRight.symm)
      · rintro ⟨-, same⟩
        refine ⟨.number first, ?_⟩
        intro argument member
        obtain ⟨number, isNumber, rfl⟩ := List.mem_map.1 member
        rcases List.mem_cons.1 isNumber with rfl | later
        · rfl
        · rw [(List.pairwise_cons.1 same).1 number later]
          rfl

/--
Each of the four functions gives a truth value exactly if there are two arguments or more
and all of them are numbers; it is true exactly if the relation holds of every two of
them, the earlier one on the left.

Otherwise it fails: for too few arguments, or because of the first argument that is no
number, whatever stands in front of it.

The converse function says the same of the arguments in reverse, and of numbers `<=` and
`>=` are both true exactly if `=` is.
-/
theorem comparison_result_iff
    (comparison : Comparison)
    (arguments : List Value) :
    (∀ value,
      comparison.builtin.result arguments = .ok value ↔
        ∃ (numbers : List Int64) (truth : Bool),
          2 ≤ numbers.length ∧ arguments = numbers.map .number ∧ value = .boolean truth ∧
            (truth = true ↔ (numbers.map Int64.toInt).Pairwise comparison.Relates)) ∧
      (∀ fault,
        comparison.builtin.result arguments = .error fault ↔
          arguments.length < 2 ∧
              fault = .arity comparison.builtin.name (.atLeast 2) arguments.length ∨
            2 ≤ arguments.length ∧
              ∃ (numbers : List Int64) (other : Value) (after : List Value),
                arguments = numbers.map .number ++ other :: after ∧
                  (∀ integer, other ≠ .number integer) ∧
                    fault = .unexpected comparison.builtin.name "Number" other.describe) ∧
      (∀ value,
        comparison.builtin.result arguments = .ok value ↔
          comparison.converse.builtin.result arguments.reverse = .ok value) ∧
      ∀ numbers : List Int64,
        atMost.builtin.result (numbers.map .number) = .ok (.boolean true) ∧
            atLeast.builtin.result (numbers.map .number) = .ok (.boolean true) ↔
          Builtin.equal.result (numbers.map .number) = .ok (.boolean true) := by
  refine ⟨fun _ => result_eq_ok_iff, fun _ => result_eq_error_iff,
    fun _ => result_reverse_eq_ok_iff, fun numbers => ?_⟩
  rw [result_map_eq_true_iff, result_map_eq_true_iff, equal_result_map_eq_true_iff,
    ← and_and_left, sorts_both_ways_iff]

/-- The last argument is a fault, although the first two are in the wrong order. -/
example :
    less.builtin.result [.number 2, .number 1, .nil] =
      .error (.unexpected "<" "Number" "Nil") := rfl

end Comparison

end MiniLisp
