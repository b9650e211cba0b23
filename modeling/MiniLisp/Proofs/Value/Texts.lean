import MiniLisp.Proofs.Value.Parts
import MiniLisp.Value.Kind
import MiniLisp.Value.Printer

/-!
# Texts of collections

This module shows that the written form and the description of a collection are
made from those of its parts, in order.  A map is written and described like the
sequence of its keys and values.
-/

namespace MiniLisp

namespace Value

theorem spaced_singleton (text : List Char) : spaced [text] = text :=
  List.intercalate_singleton

/-- A space stands between the first text and the others. -/
theorem spaced_cons_cons
    (text next : List Char)
    (texts : List (List Char)) :
    spaced (text :: next :: texts) = text ++ ' ' :: spaced (next :: texts) := by
  rw [spaced, List.intercalate_cons_cons, List.append_assoc, List.singleton_append]
  rfl

theorem writeEntries_eq_map
    (style : Style)
    (entries : List (Value × Value)) :
    writeEntries style entries = (Entries.items entries).map (write style) := by
  induction entries with
  | nil =>
      rfl
  | cons entry entries ih =>
      simp [writeEntries, Entries.items, ih]

theorem write_list
    (style : Style)
    (items : List Value) :
    (list items).write style = '(' :: spaced (items.map (write style)) ++ [')'] := by
  rw [← writeItems_eq_map]
  rfl

theorem write_vector
    (style : Style)
    (items : List Value) :
    (vector items).write style = '[' :: spaced (items.map (write style)) ++ [']'] := by
  rw [← writeItems_eq_map]
  rfl

theorem write_map
    (style : Style)
    (entries : List (Value × Value)) :
    (map entries).write style =
      '{' :: spaced ((Entries.items entries).map (write style)) ++ ['}'] := by
  rw [← writeEntries_eq_map]
  rfl

theorem describeEntries_eq_map (entries : List (Value × Value)) :
    describeEntries entries = (Entries.items entries).map describe := by
  induction entries with
  | nil =>
      rfl
  | cons entry entries ih =>
      simp [describeEntries, Entries.items, ih]

end Value

end MiniLisp
