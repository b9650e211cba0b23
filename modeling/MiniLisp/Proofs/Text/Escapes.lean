import MiniLisp.Proofs.Value.Texts
import MiniLisp.Text.Escape

/-!
# Escapes in texts that are put together

This module shows where the decoding of escapes can be split.  A backslash at the end of a
text forms an escape with what follows only if a backslash, a double quote or the letter `n`
follows.  In front of any other character the two sides are decoded independently, whatever
the first one ends with (`Text.Escape.decode_append_cons`).

A space and the brackets are such characters.  So texts that are joined by spaces, or
enclosed in brackets, are decoded one by one (`Text.Escape.decode_spaced`,
`Text.Escape.decode_enclosed`).
-/

namespace MiniLisp

namespace Text.Escape

/-- The characters that form an escape with a backslash in front of them. -/
def completesEscape (character : Char) : Bool :=
  character == '\\' || character == '"' || character == 'n'

/-- A character that forms no escape with the next one stands for itself. -/
theorem decode_cons
    {character : Char}
    {rest : List Char}
    (noEscape :
      character = '\\' → ∀ next ∈ rest.head?, completesEscape next = false) :
    decode (character :: rest) = character :: decode rest := by
  have noFollower :
      ∀ follower, completesEscape follower = true →
        ∀ more, character = '\\' → rest = follower :: more → False := by
    rintro follower completes more backslash rfl
    have plain := noEscape backslash follower rfl
    rw [completes] at plain
    cases plain
  rw [decode]
  · exact noFollower '\\' rfl
  · exact noFollower '"' rfl
  · exact noFollower 'n' rfl

theorem decode_cons_of_ne
    {character : Char}
    (noBackslash : character ≠ '\\')
    (rest : List Char) :
    decode (character :: rest) = character :: decode rest :=
  decode_cons fun backslash => absurd backslash noBackslash

/-- In front of a character that completes no escape, a text is decoded by itself. -/
theorem decode_append_cons
    {character : Char}
    (plain : completesEscape character = false)
    (first rest : List Char) :
    decode (first ++ character :: rest) = decode first ++ decode (character :: rest) := by
  fun_induction decode first with
  | case1 => rfl
  | case2 first ih => simp only [List.cons_append, decode, ih]
  | case3 first ih => simp only [List.cons_append, decode, ih]
  | case4 first ih => simp only [List.cons_append, decode, ih]
  | case5 letter first noBackslash noQuote noLineFeed ih =>
      rw [List.cons_append, List.cons_append, ← ih]
      apply decode_cons
      rintro rfl next isNext
      -- What follows the backslash is in the first text, or it is the plain character.
      cases first with
      | nil =>
          cases isNext
          exact plain
      | cons follower first =>
          cases isNext
          simp only [completesEscape, Bool.or_eq_false_iff, beq_eq_false_iff_ne]
          refine ⟨⟨?_, ?_⟩, ?_⟩
          · rintro rfl
            exact noBackslash first rfl rfl
          · rintro rfl
            exact noQuote first rfl rfl
          · rintro rfl
            exact noLineFeed first rfl rfl

/-- Texts that are joined by spaces are decoded one by one. -/
theorem decode_spaced (texts : List (List Char)) :
    decode (Value.spaced texts) = Value.spaced (texts.map decode) := by
  induction texts with
  | nil => rfl
  | cons text texts ih =>
      cases texts with
      | nil => rw [List.map_singleton, Value.spaced_singleton, Value.spaced_singleton]
      | cons next texts =>
          rw [List.map_cons, List.map_cons, Value.spaced_cons_cons, Value.spaced_cons_cons,
            ← List.map_cons, ← ih, decode_append_cons rfl, decode_cons_of_ne (by decide)]

/-- A text between two plain characters is decoded by itself. -/
theorem decode_enclosed
    {opening closing : Char}
    (openingPlain : completesEscape opening = false)
    (closingPlain : completesEscape closing = false)
    (text : List Char) :
    decode (opening :: text ++ [closing]) = opening :: decode text ++ [closing] := by
  have noBackslash : ∀ character, completesEscape character = false → character ≠ '\\' := by
    rintro character plain rfl
    cases plain
  rw [List.cons_append, decode_cons_of_ne (noBackslash opening openingPlain),
    decode_append_cons closingPlain, decode_cons_of_ne (noBackslash closing closingPlain)]
  rfl

end Text.Escape

end MiniLisp
