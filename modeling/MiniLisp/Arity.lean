/-!
# Arities

This module supplies the numbers of arguments that a function or a special
form accepts, and their description in messages.
-/

namespace MiniLisp

/-- A set of argument counts. -/
inductive Arity where
  | exactly (count : Nat)
  | atLeast (least : Nat)
  | between (least greatest : Nat)
deriving DecidableEq, Repr

namespace Arity

/-- The arity admits a number of arguments. -/
def accepts : Arity → Nat → Bool
  | exactly expected, count => count == expected
  | atLeast least, count => least ≤ count
  | between least greatest, count => least ≤ count && count ≤ greatest

/-- The arity as messages describe it. -/
def describe : Arity → String
  | exactly expected => toString expected
  | atLeast least => s!"at least {least}"
  | between least greatest => s!"{least} to {greatest}"

end Arity

end MiniLisp
