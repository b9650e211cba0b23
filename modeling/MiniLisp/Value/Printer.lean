import MiniLisp.Text.Decimal
import MiniLisp.Value

/-!
# The text of values

This module supplies the written form of a value in two styles.  The readable
style keeps the quotes of strings and the raw style leaves them out; in all
else the styles agree.  String contents appear as they are stored, with their
escapes.
-/

namespace MiniLisp.Value

/-- Whether strings keep their quotes. -/
inductive Style where
  | readable
  | raw
deriving DecidableEq, Repr

/-- Texts in a row, with a space between neighbours. -/
def spaced (texts : List (List Char)) : List Char :=
  [' '].intercalate texts

mutual

/-- The written form of a value in a style. -/
def write (style : Style) : Value → List Char
  | nil => ['n', 'i', 'l']
  | boolean true => ['t', 'r', 'u', 'e']
  | boolean false => ['f', 'a', 'l', 's', 'e']
  | number integer => Text.Decimal.ofInt64 integer
  | string contents =>
    match style with
    | .readable => '"' :: contents.toList ++ ['"']
    | .raw => contents.toList
  | symbol name => name.toList
  | keyword name => ':' :: name.toList
  | list items => '(' :: spaced (writeItems style items) ++ [')']
  | vector items => '[' :: spaced (writeItems style items) ++ [']']
  | map entries => '{' :: spaced (writeEntries style entries) ++ ['}']
  | closure .. => "#<function>".toList
  | native .. => "#<function>".toList
  | comment _ => []

/-- The written forms of items, in order. -/
def writeItems (style : Style) : List Value → List (List Char)
  | [] => []
  | item :: items => write style item :: writeItems style items

/-- The written forms of keys and their values, in order. -/
def writeEntries (style : Style) : List (Value × Value) → List (List Char)
  | [] => []
  | (key, value) :: entries =>
    write style key :: write style value :: writeEntries style entries

end

/-- The written forms of items are those of the single items. -/
theorem writeItems_eq_map (style : Style) (items : List Value) :
    writeItems style items = items.map (write style) := by
  induction items with
  | nil => rfl
  | cons item items ih => simp [writeItems, ih]

/-- The text of a value with the quotes of its strings. -/
def readable (value : Value) : String :=
  String.ofList (value.write .readable)

/-- The text of a value without the quotes of its strings. -/
def raw (value : Value) : String :=
  String.ofList (value.write .raw)

/-- The text of a value in diagnostics, which tells names and functions apart. -/
def inspect : Value → String
  | symbol name => "Symbol(" ++ readable (symbol name) ++ ")"
  | keyword name => "Keyword(" ++ readable (keyword name) ++ ")"
  | native _ routine => "#<native-fn " ++ routine.name ++ ">"
  | value => value.readable

end MiniLisp.Value
