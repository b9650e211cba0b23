/-!
# Builtin functions

This module supplies the functions that every fresh session knows, and the
symbols that name them.  `Builtin.all` lists them in the order in which a
session defines them.
-/

namespace MiniLisp

/-- The functions that are not written in the language itself. -/
inductive Builtin where
  | add
  | subtract
  | multiply
  | divide
  | equal
  | greater
  | atLeast
  | less
  | atMost
  | negation
  | conjunction
  | disjunction
  | list
  | isList
  | isEmpty
  | count
  | str
  | prStr
  | prn
  | println
deriving DecidableEq, Repr

namespace Builtin

/-- The symbol that names the function. -/
def name : Builtin → String
  | add => "+"
  | subtract => "-"
  | multiply => "*"
  | divide => "/"
  | equal => "="
  | greater => ">"
  | atLeast => ">="
  | less => "<"
  | atMost => "<="
  | negation => "not"
  | conjunction => "and"
  | disjunction => "or"
  | list => "list"
  | isList => "list?"
  | isEmpty => "empty?"
  | count => "count"
  | str => "str"
  | prStr => "pr-str"
  | prn => "prn"
  | println => "println"

/-- All builtin functions, in the order of their definition. -/
def all : List Builtin :=
  [add, subtract, multiply, divide, equal, greater, atLeast, less, atMost,
    negation, conjunction, disjunction, list, isList, isEmpty, count,
    str, prStr, prn, println]

/-- Every builtin function is listed. -/
theorem mem_all (builtin : Builtin) : builtin ∈ all := by
  cases builtin <;> decide

/-- Different builtin functions have different names. -/
theorem nodup_names : (all.map name).Nodup := by
  decide

end Builtin

end MiniLisp
