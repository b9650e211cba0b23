import MiniLisp.Proofs.Builtin.Arithmetic
import MiniLisp.Proofs.Eval.Correspondence

/-!
# Builtin functions on arguments of two runs

This module shows that builtin functions give matching results for arguments that
match, and write the same text (`Builtin.agree_result`, `Builtin.written_eq`).

A builtin function can tell its arguments apart by their kind, their length, their
text and their order, and these are the same for values that match.  Faults describe
arguments without names.
-/

namespace MiniLisp

open MiniLisp.Value (Matches)

namespace Builtin

variable
  {translation : Translation}
  {pairing : Pairing}

/-- Two lists of arguments that match one by one. -/
abbrev ArgumentsMatch
    (translation : Translation)
    (pairing : Pairing) :
    List Value → List Value → Prop :=
  List.Forall₂ (Matches translation pairing)

theorem agree_multiary
    (name : String)
    {result result' : Value → List Value → Except Fault Value}
    {arguments others : List Value}
    (same : ArgumentsMatch translation pairing arguments others)
    (agree :
      ∀ first first' rest rest',
        first.Matches translation pairing first' →
          ArgumentsMatch translation pairing rest rest' →
            ResultsAgree translation (Matches translation pairing)
              (result first rest) (result' first' rest')) :
    ResultsAgree translation (Matches translation pairing)
      (multiary name result arguments) (multiary name result' others) := by
  cases same with
  | nil => exact .fault _
  | cons head tail =>
      cases tail with
      | nil => exact .fault _
      | cons next rest => exact agree _ _ _ _ head (.cons next rest)

theorem agree_unary
    (name : String)
    {result result' : Value → Value}
    {arguments others : List Value}
    (same : ArgumentsMatch translation pairing arguments others)
    (agree :
      ∀ argument other,
        argument.Matches translation pairing other →
          (result argument).Matches translation pairing (result' other)) :
    ResultsAgree translation (Matches translation pairing)
      (unary name result arguments) (unary name result' others) := by
  cases same with
  | nil => exact .fault _
  | cons head tail =>
      cases tail with
      | nil => exact .result (agree _ _ head)
      | cons next rest =>
          have sameLength := rest.length_eq
          unfold unary
          simp only [List.length_cons, sameLength]
          exact .fault _

theorem agree_apply
    (operation : Operation)
    (left right : Int64) :
    ResultsAgree translation Eq (operation.apply left right) (operation.apply left right) := by
  unfold Operation.apply
  split
  · exact .fault _
  · split
    · exact .result rfl
    · exact .fault _

theorem agree_step
    (operation : Operation)
    {running running' operand operand' : Value}
    (runningMatches : running.Matches translation pairing running')
    (operandMatches : operand.Matches translation pairing operand') :
    ResultsAgree translation (Matches translation pairing)
      (operation.step running operand) (operation.step running' operand') := by
  by_cases both : ∃ left right, running = .number left ∧ operand = .number right
  · obtain ⟨left, right, rfl, rfl⟩ := both
    cases runningMatches
    cases operandMatches
    exact (agree_apply operation left right).map fun _ _ same => by rw [same]; rfl
  · have notBoth : ¬ ∃ left right, running' = .number left ∧ operand' = .number right := by
      rintro ⟨left, right, rfl, rfl⟩
      exact both ⟨left, right, Value.eq_number_of_alike runningMatches,
        Value.eq_number_of_alike operandMatches⟩
    rw [operation.step_of_not_numbers both, operation.step_of_not_numbers notBoth]
    rw [Fault.operandValues, Fault.operandValues, runningMatches.describe_eq,
      operandMatches.describe_eq]
    exact .fault _

theorem agree_fold
    (operation : Operation)
    {running running' : Value}
    {operands others : List Value}
    (runningMatches : running.Matches translation pairing running')
    (same : ArgumentsMatch translation pairing operands others) :
    ResultsAgree translation (Matches translation pairing)
      (operation.fold running operands) (operation.fold running' others) := by
  induction same generalizing running running' with
  | nil => exact .result runningMatches
  | cons head tail ih =>
      rw [Operation.fold, Operation.fold]
      have agree := agree_step operation runningMatches head
      generalize operation.step running _ = made at agree
      generalize operation.step running' _ = made' at agree
      cases agree with
      | fault fault => exact .fault fault
      | result holds => exact ih holds

theorem requireNumber_eq_error
    (name : String)
    {argument : Value}
    (noNumber : ¬ ∃ integer, argument = .number integer) :
    argument.requireNumber name = .error (.unexpectedValue name "Number" argument) := by
  unfold Value.requireNumber
  split
  · next integer => exact absurd ⟨integer, rfl⟩ noNumber
  · rfl

theorem agree_requireNumbers
    (name : String)
    {arguments others : List Value}
    (same : ArgumentsMatch translation pairing arguments others) :
    ResultsAgree translation Eq
      (Value.requireNumbers name arguments) (Value.requireNumbers name others) := by
  induction same with
  | nil => exact .result rfl
  | @cons argument other arguments others head tail ih =>
      by_cases isNumber : ∃ integer, argument = .number integer
      · obtain ⟨integer, rfl⟩ := isNumber
        cases head
        exact ih.map fun _ _ same => by rw [same]
      · have noNumber : ¬ ∃ integer, other = .number integer := by
          rintro ⟨integer, rfl⟩
          exact isNumber ⟨integer, Value.eq_number_of_alike head⟩
        rw [Value.requireNumbers, Value.requireNumbers, requireNumber_eq_error name isNumber,
          requireNumber_eq_error name noNumber]
        rw [Fault.unexpectedValue, Fault.unexpectedValue, head.describe_eq]
        exact .fault _

theorem agree_compareNumbers
    (name : String)
    (comparison : Comparison)
    {arguments others : List Value}
    (same : ArgumentsMatch translation pairing arguments others) :
    ResultsAgree translation (Matches translation pairing)
      (compareNumbers name comparison arguments) (compareNumbers name comparison others) := by
  apply agree_multiary name same
  intro first first' rest rest' head tail
  exact (agree_requireNumbers name (.cons head tail)).map fun _ _ equal => by rw [equal]; rfl

theorem agree_equal
    {arguments others : List Value}
    (same : ArgumentsMatch translation pairing arguments others) :
    ResultsAgree translation (Matches translation pairing)
      (equal.result arguments) (equal.result others) := by
  rw [result]
  apply agree_multiary equal.name same
  intro first first' rest rest' head tail
  have tests : rest.all (· == first) = rest'.all (· == first') := by
    induction tail with
    | nil => rfl
    | cons other _ ih => rw [List.all_cons, List.all_cons, other.beq_eq head, ih]
  rw [tests]
  exact .result rfl

theorem matches_firstOrLast
    {test : Value → Bool}
    (respects :
      ∀ {value other : Value}, value.Matches translation pairing other → test value = test other)
    {default default' : Value}
    (defaults : default.Matches translation pairing default')
    {arguments others : List Value}
    (same : ArgumentsMatch translation pairing arguments others) :
    (firstOrLast test default arguments).Matches translation pairing
      (firstOrLast test default' others) := by
  have found :
      Option.Rel (Matches translation pairing) (arguments.find? test) (others.find? test) := by
    induction same with
    | nil => exact .none
    | @cons argument other _ _ head tail ih =>
        rw [List.find?_cons, List.find?_cons, ← respects head]
        cases test argument with
        | true => exact .some head
        | false => exact ih
  have last :
      Option.Rel (Matches translation pairing) arguments.getLast? others.getLast? := by
    rw [List.getLast?_eq_head?_reverse, List.getLast?_eq_head?_reverse]
    have reversed := List.rel_reverse same
    generalize arguments.reverse = backward at reversed
    generalize others.reverse = backward' at reversed
    cases reversed with
    | nil => exact .none
    | cons head tail => exact .some head
  unfold firstOrLast
  generalize arguments.find? test = result at found
  generalize others.find? test = result' at found
  cases found with
  | some holds => exact holds
  | none =>
      generalize arguments.getLast? = result at last
      generalize others.getLast? = result' at last
      cases last with
      | some holds => exact holds
      | none => exact defaults

theorem map_write_eq
    {arguments others : List Value}
    (same : ArgumentsMatch translation pairing arguments others)
    (style : Value.Style) :
    arguments.map (Value.write style) = others.map (Value.write style) :=
  Value.map_eq_map_of_forall₂ (same.imp fun _ _ holds => holds.write_eq style)

theorem raw_eq
    {arguments others : List Value}
    (same : ArgumentsMatch translation pairing arguments others) :
    Printed.raw arguments = Printed.raw others := by
  rw [Printed.raw, Printed.raw, List.flatMap_def, List.flatMap_def, map_write_eq same]

theorem escaped_eq
    {arguments others : List Value}
    (same : ArgumentsMatch translation pairing arguments others) :
    Printed.escaped arguments = Printed.escaped others := by
  have each :
      arguments.map (fun argument => Text.Escape.encode (argument.write .readable)) =
        others.map fun argument => Text.Escape.encode (argument.write .readable) :=
    Value.map_eq_map_of_forall₂
      (same.imp fun _ _ holds => congrArg Text.Escape.encode (holds.write_eq .readable))
  rw [Printed.escaped, Printed.escaped, each]

/-- A builtin function gives matching results for matching arguments. -/
theorem agree_result
    (builtin : Builtin)
    {arguments others : List Value}
    (same : ArgumentsMatch translation pairing arguments others) :
    ResultsAgree translation (Matches translation pairing)
      (builtin.result arguments) (builtin.result others) := by
  cases builtin with
  | add => exact agree_multiary _ same fun _ _ _ _ => agree_fold .addition
  | subtract => exact agree_multiary _ same fun _ _ _ _ => agree_fold .subtraction
  | multiply => exact agree_multiary _ same fun _ _ _ _ => agree_fold .multiplication
  | divide => exact agree_multiary _ same fun _ _ _ _ => agree_fold .division
  | equal => exact agree_equal same
  | greater => exact agree_compareNumbers _ .greater same
  | atLeast => exact agree_compareNumbers _ .atLeast same
  | less => exact agree_compareNumbers _ .less same
  | atMost => exact agree_compareNumbers _ .atMost same
  | negation =>
      apply agree_unary _ same
      intro argument other holds
      rw [holds.read_eq Value.readsSurface_isTruthy]
      rfl
  | conjunction =>
      have defaults : (Value.boolean true).Matches translation pairing (.boolean true) := rfl
      refine .result (matches_firstOrLast ?_ defaults same)
      intro value other holds
      rw [holds.read_eq Value.readsSurface_isTruthy]
  | disjunction =>
      have defaults : Value.nil.Matches translation pairing .nil := rfl
      refine .result (matches_firstOrLast ?_ defaults same)
      intro value other holds
      exact holds.read_eq Value.readsSurface_isTruthy
  | list =>
      exact .result (Value.alike_list_iff.2 ⟨others, rfl, same⟩)
  | isList =>
      apply agree_unary _ same
      intro argument other holds
      rw [holds.read_eq Value.readsSurface_isList]
      rfl
  | isEmpty =>
      apply agree_unary _ same
      intro argument other holds
      rw [holds.read_eq Value.readsSurface_size?]
      rfl
  | count =>
      apply agree_unary _ same
      intro argument other holds
      rw [sizeNumber, sizeNumber, holds.read_eq Value.readsSurface_size?]
      rfl
  | str =>
      simp only [result, raw_eq same]
      exact .result rfl
  | prStr =>
      simp only [result, escaped_eq same]
      exact .result rfl
  | prn => exact .result rfl
  | println => exact .result rfl

/-- A builtin function writes the same text for matching arguments. -/
theorem written_eq
    (builtin : Builtin)
    {arguments others : List Value}
    (same : ArgumentsMatch translation pairing arguments others) :
    builtin.written arguments = builtin.written others := by
  cases builtin with
  | prn => rw [written, written, Printed.readable, Printed.readable, map_write_eq same]
  | println => rw [written, written, Printed.decoded, Printed.decoded, map_write_eq same]
  | _ => rfl

end Builtin

end MiniLisp
