import MiniLisp.Value.Kind

/-!
# Fingerprints of values

This module supplies the flat sequence of typed marks that a value contributes
to a hash.  Each value contributes its rank first; a collection contributes its
size before its parts, so the marks of one value never run into those of the
next.  Equal values have the same fingerprint, whether they are lists or
vectors.
-/

namespace MiniLisp.Value

/-- One typed contribution to a hash. -/
inductive Mark where
  | rank (rank : Nat)
  | truth (truth : Bool)
  | integer (integer : Int64)
  | text (text : String)
  | name (name : String)
  | size (size : Nat)
  | identity (identity : Nat)
deriving DecidableEq, Repr

mutual

/-- The marks of a value, its rank first. -/
def fingerprint : Value → List Mark
  | value@nil => [.rank value.rank]
  | value@(boolean truth) => [.rank value.rank, .truth truth]
  | value@(number integer) => [.rank value.rank, .integer integer]
  | value@(string contents) => [.rank value.rank, .text contents]
  | value@(symbol name) => [.rank value.rank, .name name]
  | value@(keyword name) => [.rank value.rank, .name name]
  | value@(list items) =>
    .rank value.rank :: .size items.length :: fingerprintItems items
  | value@(vector items) =>
    .rank value.rank :: .size items.length :: fingerprintItems items
  | value@(map entries) =>
    .rank value.rank :: .size entries.length :: fingerprintEntries entries
  | value@(closure identity _ _ _) => [.rank value.rank, .identity identity]
  | value@(native identity _) => [.rank value.rank, .identity identity]
  | value@(comment text) => [.rank value.rank, .text text]

/-- The marks of items, in order. -/
def fingerprintItems : List Value → List Mark
  | [] => []
  | item :: items => fingerprint item ++ fingerprintItems items

/-- The marks of keys and their values, in order. -/
def fingerprintEntries : List (Value × Value) → List Mark
  | [] => []
  | (key, value) :: entries =>
    fingerprint key ++ fingerprint value ++ fingerprintEntries entries

end

end MiniLisp.Value
