import MiniLisp.Proofs.Builtin.Arithmetic

/-!
# Values that builtin functions make

This module shows that a builtin function makes nothing but `nil`, booleans, numbers,
one of its arguments, the list of them, and texts that are joined from them
(`Builtin.yields_of_result`).
-/

namespace MiniLisp

namespace Builtin

/-- The values that a builtin function can make of its arguments. -/
inductive Yields (arguments : List Value) : Value → Prop where
  | nil : Yields arguments .nil
  | boolean (truth : Bool) : Yields arguments (.boolean truth)
  | number (integer : Int64) : Yields arguments (.number integer)
  | argument {value : Value} (member : value ∈ arguments) : Yields arguments value
  | list : Yields arguments (.list arguments)
  | raw : Yields arguments (.string (String.ofList (Printed.raw arguments)))
  | escaped : Yields arguments (.string (String.ofList (Printed.escaped arguments)))

theorem exists_of_map_eq_ok
    {First Second : Type}
    {next : First → Second}
    {given : Except Fault First}
    {result : Second}
    (success : given.map next = .ok result) :
    ∃ value, given = .ok value ∧ next value = result := by
  cases given with
  | error fault => cases success
  | ok value =>
      cases success
      exact ⟨value, rfl, rfl⟩

theorem fold_eq_ok
    {operation : Operation}
    {running result : Value}
    {operands : List Value}
    (success : operation.fold running operands = .ok result) :
    result = running ∨ ∃ integer, result = .number integer := by
  rcases Operation.fold_eq_ok_iff.1 success with ⟨-, same⟩ | ⟨_, _, last, -, -, same, -⟩
  · exact Or.inl same
  · exact Or.inr ⟨last, same⟩

theorem multiary_eq_ok
    {name : String}
    {result : Value → List Value → Except Fault Value}
    {arguments : List Value}
    {value : Value}
    (success : multiary name result arguments = .ok value) :
    ∃ first rest, arguments = first :: rest ∧ result first rest = .ok value := by
  unfold multiary at success
  split at success
  · exact ⟨_, _, rfl, success⟩
  · cases success

theorem unary_eq_ok
    {name : String}
    {result : Value → Value}
    {arguments : List Value}
    {value : Value}
    (success : unary name result arguments = .ok value) :
    ∃ argument, value = result argument := by
  unfold unary at success
  split at success
  · cases success
    exact ⟨_, rfl⟩
  · cases success

theorem mem_or_eq_firstOrLast
    (test : Value → Bool)
    (default : Value)
    (arguments : List Value) :
    firstOrLast test default arguments ∈ arguments ∨
      firstOrLast test default arguments = default := by
  unfold firstOrLast
  split
  · next argument found => exact Or.inl (List.mem_of_find?_eq_some found)
  · cases last : arguments.getLast? with
    | none => exact Or.inr rfl
    | some argument => exact Or.inl (List.mem_of_getLast? last)

theorem yields_of_fold
    {operation : Operation}
    {name : String}
    {arguments : List Value}
    {value : Value}
    (success : multiary name operation.fold arguments = .ok value) :
    Yields arguments value := by
  obtain ⟨first, rest, rfl, folded⟩ := multiary_eq_ok success
  rcases fold_eq_ok folded with rfl | ⟨integer, rfl⟩
  · exact .argument List.mem_cons_self
  · exact .number integer

theorem yields_of_compareNumbers
    {comparison : Comparison}
    {name : String}
    {arguments : List Value}
    {value : Value}
    (success : compareNumbers name comparison arguments = .ok value) :
    Yields arguments value := by
  obtain ⟨first, rest, -, compared⟩ := multiary_eq_ok success
  obtain ⟨numbers, -, rfl⟩ := exists_of_map_eq_ok compared
  exact .boolean _

theorem yields_of_firstOrLast
    {test : Value → Bool}
    {default : Value}
    {arguments : List Value}
    (otherwise : Yields arguments default) :
    Yields arguments (firstOrLast test default arguments) := by
  rcases mem_or_eq_firstOrLast test default arguments with member | same
  · exact .argument member
  · rw [same]
    exact otherwise

/-- A builtin function makes nothing else of its arguments. -/
theorem yields_of_result
    {builtin : Builtin}
    {arguments : List Value}
    {value : Value}
    (success : builtin.result arguments = .ok value) :
    Yields arguments value := by
  cases builtin with
  | add => exact yields_of_fold success
  | subtract => exact yields_of_fold success
  | multiply => exact yields_of_fold success
  | divide => exact yields_of_fold success
  | greater => exact yields_of_compareNumbers success
  | atLeast => exact yields_of_compareNumbers success
  | less => exact yields_of_compareNumbers success
  | atMost => exact yields_of_compareNumbers success
  | equal =>
      rw [result] at success
      obtain ⟨first, rest, -, made⟩ := multiary_eq_ok success
      cases made
      exact .boolean _
  | negation =>
      obtain ⟨argument, rfl⟩ := unary_eq_ok success
      exact .boolean _
  | isList =>
      obtain ⟨argument, rfl⟩ := unary_eq_ok success
      exact .boolean _
  | isEmpty =>
      obtain ⟨argument, rfl⟩ := unary_eq_ok success
      exact .boolean _
  | count =>
      obtain ⟨argument, rfl⟩ := unary_eq_ok success
      exact .number _
  | conjunction =>
      cases success
      exact yields_of_firstOrLast (.boolean true)
  | disjunction =>
      cases success
      exact yields_of_firstOrLast .nil
  | list =>
      cases success
      exact .list
  | str =>
      cases success
      exact .raw
  | prStr =>
      cases success
      exact .escaped
  | prn =>
      cases success
      exact .nil
  | println =>
      cases success
      exact .nil

end Builtin

end MiniLisp
