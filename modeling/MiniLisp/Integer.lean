/-!
# The range of numbers

This module supplies the passage from integers of any size to the 64-bit
numbers of the language.  A value outside the range has no number; it never
wraps around.
-/

namespace MiniLisp.Integer

/-- The least number of the language. -/
def least : Int := -9223372036854775808

/-- The greatest number of the language. -/
def greatest : Int := 9223372036854775807

/-- The number with a given value, if the value is in range. -/
def ofInt? (value : Int) : Option Int64 :=
  if least ≤ value ∧ value ≤ greatest then
    some (Int64.ofInt value)
  else
    none

/-- The value of every number is in range. -/
theorem ofInt?_toInt (number : Int64) : ofInt? number.toInt = some number := by
  have lower := Int64.le_toInt number
  have upper := Int64.toInt_lt number
  unfold ofInt? least greatest
  rw [if_pos ⟨by omega, by omega⟩, Int64.ofInt_toInt]

end MiniLisp.Integer
