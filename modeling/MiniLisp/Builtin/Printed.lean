import MiniLisp.Text.Escape
import MiniLisp.Value.Printer

/-!
# Texts of argument lists

This module supplies the texts that the printing functions make of their
arguments: the readable forms as they are, or escaped so that the text can
stand inside a string; and the raw forms with their escapes decoded.
-/

namespace MiniLisp.Printed

/-- The readable forms, with a space between neighbours. -/
def readable (arguments : List Value) : List Char :=
  Value.spaced (arguments.map (Value.write .readable))

/-- The escaped readable forms, with a space between neighbours. -/
def escaped (arguments : List Value) : List Char :=
  Value.spaced (arguments.map fun argument =>
    Text.Escape.encode (argument.write .readable))

/-- The raw forms without anything between neighbours. -/
def raw (arguments : List Value) : List Char :=
  arguments.flatMap (Value.write .raw)

/-- The raw forms, spaced, with the escapes of the whole text decoded. -/
def decoded (arguments : List Value) : List Char :=
  Text.Escape.decode (Value.spaced (arguments.map (Value.write .raw)))

end MiniLisp.Printed
