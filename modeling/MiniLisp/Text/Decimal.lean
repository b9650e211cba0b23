import MiniLisp.Integer

/-!
# Decimal integers

This module supplies the written form of 64-bit integers: the reading of a
text as an integer, and the text of an integer.

A numeral is an optional single sign followed by at least one ASCII digit.
Leading zeros are allowed, and a numeral outside the range of 64-bit integers
denotes no number.  An integer is written without leading zeros and without a
plus sign.
-/

namespace MiniLisp.Text.Decimal

/-- The value of a nonempty run of ASCII digits. -/
def magnitude? (digits : List Char) : Option Nat :=
  if digits ≠ [] ∧ digits.all Char.isDigit then
    some (Nat.ofDigitChars 10 digits 0)
  else
    none

/-- The integer that a numeral denotes, of any size. -/
def int? : List Char → Option Int
  | '-' :: digits => (magnitude? digits).map fun value => -(value : Int)
  | '+' :: digits => (magnitude? digits).map fun value => (value : Int)
  | digits => (magnitude? digits).map fun value => (value : Int)

/-- The 64-bit integer that a numeral denotes. -/
def int64? (numeral : List Char) : Option Int64 :=
  (int? numeral).bind Integer.ofInt?

/-- The numeral of an integer of any size. -/
def ofInt (value : Int) : List Char :=
  if value < 0 then
    '-' :: Nat.toDigits 10 value.natAbs
  else
    Nat.toDigits 10 value.natAbs

/-- The numeral of a 64-bit integer. -/
def ofInt64 (value : Int64) : List Char :=
  ofInt value.toInt

/-- The digits of a natural number are a numeral of it. -/
@[simp]
theorem magnitude?_toDigits (value : Nat) :
    magnitude? (Nat.toDigits 10 value) = some value := by
  have digits : (Nat.toDigits 10 value).all Char.isDigit = true := by
    rw [List.all_eq_true]
    intro digit member
    exact Nat.isDigit_of_mem_toDigits (by decide) (by decide) member
  simp [magnitude?, Nat.toDigits_ne_nil, Nat.ofDigitChars_ten_toDigits, digits]

/-- A text that starts with neither sign is a numeral if it consists of digits. -/
theorem int?_of_head_ne_sign
    {digits : List Char}
    (noMinus : digits.head? ≠ some '-')
    (noPlus : digits.head? ≠ some '+') :
    int? digits = (magnitude? digits).map fun value => (value : Int) := by
  unfold int?
  split
  · simp at noMinus
  · simp at noPlus
  · rfl

/-- Reading a numeral takes back what writing it did. -/
@[simp]
theorem int?_ofInt (value : Int) : int? (ofInt value) = some value := by
  unfold ofInt
  split
  · next negative =>
    have opposite : -(value.natAbs : Int) = value := by omega
    rw [int?, magnitude?_toDigits]
    exact congrArg some opposite
  · next nonnegative =>
    have unsigned :
        ∀ sign : Char, sign.isDigit = false →
          (Nat.toDigits 10 value.natAbs).head? ≠ some sign := by
      intro sign noDigit equality
      have isDigit : sign.isDigit = true :=
        Nat.isDigit_of_mem_toDigits (by decide) (by decide)
          (List.mem_of_head? equality)
      rw [noDigit] at isDigit
      cases isDigit
    rw [int?_of_head_ne_sign (unsigned '-' rfl) (unsigned '+' rfl)]
    have same : (value.natAbs : Int) = value := by omega
    rw [magnitude?_toDigits]
    exact congrArg some same

/-- Reading the numeral of a number gives the number back. -/
@[simp]
theorem int64?_ofInt64 (value : Int64) : int64? (ofInt64 value) = some value := by
  simp [int64?, ofInt64, Integer.ofInt?_toInt]

end MiniLisp.Text.Decimal
