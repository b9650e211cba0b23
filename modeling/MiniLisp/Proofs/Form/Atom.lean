import MiniLisp.Form.Atom

/-!
# Atoms by their first character

This module supplies the form of an atom by the kind of its text.  A colon starts
a keyword and a quote starts a string; a numeral starts with neither, nor is it a
reserved word.  Every other text is a symbol, so the only texts that are no atoms
are strings without a closing quote (`ofText?_eq_none_iff`).
-/

namespace MiniLisp.Atom

open MiniLisp.Text.Decimal (int64? ofInt64)

theorem int64?_cons_of_ne
    {first : Char}
    (noMinus : first ≠ '-')
    (noPlus : first ≠ '+')
    (noDigit : first.isDigit = false)
    (rest : List Char) :
    int64? (first :: rest) = none := by
  have noNumeral : Text.Decimal.int? (first :: rest) = none := by
    rw [Text.Decimal.int?_of_head_ne_sign (by simpa using noMinus) (by simpa using noPlus)]
    simp [Text.Decimal.magnitude?, noDigit]
  rw [int64?, noNumeral]
  rfl

theorem ofText?_quote (body : List Char) :
    ofText? ('"' :: body) =
      (contents? body).map fun contents => .string (String.ofList contents) := by
  rw [ofText?, int64?_cons_of_ne (by decide) (by decide) (by decide)]
  rfl

theorem ofText?_colon (name : List Char) :
    ofText? (':' :: name) = some (.keyword (String.ofList name)) := by
  rw [ofText?, int64?_cons_of_ne (by decide) (by decide) (by decide)]
  rfl

/-- A word that no earlier rule takes is a symbol. -/
theorem ofText?_symbol
    {name : List Char}
    (notReserved : reserved? name = none)
    (noNumeral : int64? name = none)
    (noColon : name.head? ≠ some ':')
    (noQuote : name.head? ≠ some '"') :
    ofText? name = some (.symbol (String.ofList name)) := by
  rw [ofText?, notReserved, noNumeral]
  cases name with
  | nil => rfl
  | cons first rest =>
      rw [ofWord?.eq_def]
      split <;> simp_all

/-- A numeral starts with a minus sign or a digit. -/
theorem exists_ofInt64_eq_cons (integer : Int64) :
    ∃ first rest,
      ofInt64 integer = first :: rest ∧ (first = '-' ∨ first.isDigit = true) ∧
        ∀ digit ∈ rest, digit.isDigit = true := by
  have digits : ∀ value : Nat, ∀ digit ∈ Nat.toDigits 10 value, digit.isDigit = true :=
    fun value digit member =>
      Nat.isDigit_of_mem_toDigits (by decide) (by decide) member
  rw [ofInt64, Text.Decimal.ofInt]
  split
  · exact ⟨'-', _, rfl, Or.inl rfl, digits _⟩
  · cases equality : Nat.toDigits 10 integer.toInt.natAbs with
    | nil => exact absurd equality Nat.toDigits_ne_nil
    | cons first rest =>
        have all := digits integer.toInt.natAbs
        rw [equality] at all
        exact ⟨first, rest, rfl, Or.inr (all first List.mem_cons_self),
          fun digit member => all digit (List.mem_cons_of_mem first member)⟩

theorem ofText?_ofInt64 (integer : Int64) :
    ofText? (ofInt64 integer) = some (.number integer) := by
  have notReserved : reserved? (ofInt64 integer) = none := by
    obtain ⟨first, rest, equality, start, -⟩ := exists_ofInt64_eq_cons integer
    rw [equality, reserved?]
    have noLetter : ∀ letter : Char,
        letter ≠ '-' → letter.isDigit = false → ∀ word, first :: rest ≠ letter :: word := by
      intro letter noMinus noDigit word same
      cases same
      rcases start with minus | digit
      · exact noMinus minus
      · rw [noDigit] at digit
        cases digit
    rw [if_neg (noLetter 'n' (by decide) (by decide) _),
      if_neg (noLetter 't' (by decide) (by decide) _),
      if_neg (noLetter 'f' (by decide) (by decide) _)]
  rw [ofText?, notReserved, Text.Decimal.int64?_ofInt64]

/-- The atoms by their texts. -/
theorem ofText?_cases
    {text : List Char}
    {value : Value}
    (isAtom : ofText? text = some value) :
    value = .nil ∨ (∃ truth, value = .boolean truth) ∨ (∃ integer, value = .number integer) ∨
      (∃ name, text = ':' :: name ∧ value = .keyword (String.ofList name)) ∨
      (∃ body contents,
        text = '"' :: body ∧ contents? body = some contents ∧
          value = .string (String.ofList contents)) ∨
      (reserved? text = none ∧ int64? text = none ∧
        text.head? ≠ some ':' ∧ text.head? ≠ some '"' ∧
        value = .symbol (String.ofList text)) := by
  rw [ofText?] at isAtom
  split at isAtom
  · next reserved =>
      rw [reserved?] at reserved
      cases isAtom
      split at reserved
      · cases reserved
        simp
      · split at reserved
        · cases reserved
          simp
        · split at reserved
          · cases reserved
            simp
          · cases reserved
  · next notReserved =>
      split at isAtom
      · cases isAtom
        simp
      · next noNumeral =>
          rw [ofWord?.eq_def] at isAtom
          split at isAtom
          · cases isAtom
            simp
          · next body =>
              obtain ⟨contents, closed, rfl⟩ := Option.map_eq_some_iff.1 isAtom
              simp [closed]
          · next noColon noQuote =>
              cases isAtom
              refine Or.inr (Or.inr (Or.inr (Or.inr (Or.inr
                ⟨notReserved, noNumeral, ?_, ?_, rfl⟩))))
              · intro colon
                obtain ⟨rest, rfl⟩ := List.head?_eq_some_iff.1 colon
                exact noColon rest rfl
              · intro quote
                obtain ⟨rest, rfl⟩ := List.head?_eq_some_iff.1 quote
                exact noQuote rest rfl

/-- The only texts that are no atoms are strings without a closing quote. -/
theorem ofText?_eq_none_iff {text : List Char} :
    ofText? text = none ↔ ∃ body, text = '"' :: body ∧ contents? body = none := by
  constructor
  · intro noAtom
    rw [ofText?] at noAtom
    split at noAtom
    · cases noAtom
    · split at noAtom
      · cases noAtom
      · rw [ofWord?.eq_def] at noAtom
        split at noAtom
        · cases noAtom
        · next body _ _ => exact ⟨body, rfl, Option.map_eq_none_iff.1 noAtom⟩
        · cases noAtom
  · rintro ⟨body, rfl, stays⟩
    rw [ofText?_quote, stays]
    rfl

end MiniLisp.Atom
