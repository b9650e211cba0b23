import MiniLisp.Proofs.Eval.Alike

/-!
# Names and parameters in two runs

This module shows that special forms which are alike bind names that are translated
into each other, or end with the same fault (`Value.agree_bindingNames`,
`Parameters.agree_ofValue`).
-/

namespace MiniLisp

namespace Value

variable
  {translation : Translation}
  {pairing : Pairing}
  {names : String → Prop}

theorem agree_bindingName
    (form : String)
    {value other : Value}
    (alike : value.Alike translation pairing names other) :
    ResultsAgree translation (fun name name' => name' = translation.name name)
      (value.bindingName form) (other.bindingName form) := by
  by_cases isSymbol : ∃ name, value = symbol name
  · obtain ⟨name, rfl⟩ := isSymbol
    obtain ⟨-, rfl⟩ := alike_symbol_iff.1 alike
    exact .result rfl
  · have fails
        {value : Value}
        (noSymbol : ¬ ∃ name, value = symbol name) :
        value.bindingName form = .error (.binding form (.notSymbol value.describe)) := by
      unfold bindingName
      split
      · next name => exact absurd ⟨name, rfl⟩ noSymbol
      · rfl
    rw [fails isSymbol, fails, alike.describe_eq]
    · exact .fault _
    · rintro ⟨name, rfl⟩
      exact isSymbol (exists_symbol_of_alike alike)

theorem agree_bindingNames
    (form : String)
    {values others : List Value}
    (alike : List.Forall₂ (Alike translation pairing names) values others) :
    ResultsAgree translation (fun found found' => found' = found.map translation.name)
      (bindingNames form values) (bindingNames form others) := by
  induction alike with
  | nil => exact .result rfl
  | @cons value other values others head tail ih =>
      rw [bindingNames, bindingNames]
      have agree := agree_bindingName form head
      generalize value.bindingName form = name at agree
      generalize other.bindingName form = name' at agree
      cases agree with
      | fault fault => exact .fault fault
      | result same =>
          apply ih.map
          rintro found found' rfl
          rw [same, List.map_cons]

end Value

namespace Parameters

variable
  {translation : Translation}
  {pairing : Pairing}
  {names : String → Prop}

theorem agree_ofValue
    (form : String)
    {value other : Value}
    (alike : value.Alike translation pairing names other) :
    ResultsAgree translation
      (fun parameters parameters' => parameters' = parameters.rename translation.name)
      (ofValue form value) (ofValue form other) := by
  unfold ofValue
  have sequences := alike.items?
  have descriptions := alike.describe_eq
  generalize value.items? = items at sequences
  generalize other.items? = items' at sequences
  cases sequences with
  | none =>
      simp only [Fault.unexpectedValue, descriptions]
      exact .fault _
  | some inItems =>
      have agree := Value.agree_bindingNames form inItems
      dsimp only
      generalize Value.bindingNames form _ = found at agree
      generalize Value.bindingNames form _ = found' at agree
      cases agree with
      | fault fault => exact .fault fault
      | @result found found' same =>
          subst same
          dsimp only
          rw [ofNames?_map]
          cases ofNames? found with
          | none => exact .fault _
          | some parameters => exact .result rfl

end Parameters

end MiniLisp
