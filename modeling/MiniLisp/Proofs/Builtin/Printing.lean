import MiniLisp.Proofs.Eval.Closures
import MiniLisp.Proofs.Form.RoundTrip
import MiniLisp.Proofs.Text.Escapes
import MiniLisp.Proofs.Value.Quotable
import MiniLisp.Session

/-!
# What the printing functions print

This module relates the four texts that can be made of an argument list.

The text that `println` prints is decoded as a whole, but this is the same as decoding each
argument by itself, and in lists, vectors and maps each item by itself: no escape is formed
or lost where two texts meet (`Printed.decoded_eq_spaced`).

The text that `pr-str` makes can stand inside a string and is read back as that string.
Decoded, it is the text that `prn` prints, so that `println` of it prints the same as `prn`
of the arguments (`Printed.escaped_prints_readable`).
-/

namespace MiniLisp

open MiniLisp.Text.Escape (decode)

/-! ## Texts decoded piece by piece -/

namespace Printed

/-- The raw text of a value with its escapes decoded. -/
def unescaped (value : Value) : List Char :=
  decode (value.write .raw)

theorem map_decode_write (values : List Value) :
    (values.map (Value.write .raw)).map decode = values.map unescaped := by
  rw [List.map_map]
  rfl

/-- The text of parts between brackets is made of the decoded texts of the parts. -/
theorem unescaped_of_brackets
    {value : Value}
    {opening closing : Char}
    {parts : List Value}
    (written :
      value.write .raw = opening :: Value.spaced (parts.map (Value.write .raw)) ++ [closing])
    (openingPlain : Text.Escape.completesEscape opening = false)
    (closingPlain : Text.Escape.completesEscape closing = false) :
    unescaped value = opening :: Value.spaced (parts.map unescaped) ++ [closing] := by
  rw [unescaped, written, Text.Escape.decode_enclosed openingPlain closingPlain,
    Text.Escape.decode_spaced, map_decode_write]

/--
The text that is printed of an argument list is made of the decoded texts of the single
arguments, and the decoded text of a collection is made of the decoded texts of its items,
or of its keys and values.
-/
theorem decoded_eq_spaced :
    (∀ arguments : List Value,
      decoded arguments = Value.spaced (arguments.map unescaped)) ∧
      (∀ items : List Value,
        unescaped (.list items) = '(' :: Value.spaced (items.map unescaped) ++ [')']) ∧
      (∀ items : List Value,
        unescaped (.vector items) = '[' :: Value.spaced (items.map unescaped) ++ [']']) ∧
      ∀ entries : List (Value × Value),
        unescaped (.map entries) =
          '{' :: Value.spaced ((Entries.items entries).map unescaped) ++ ['}'] := by
  refine ⟨?_, ?_, ?_, ?_⟩
  · intro arguments
    rw [decoded, Text.Escape.decode_spaced, map_decode_write]
  · exact fun items => unescaped_of_brackets (Value.write_list .raw items) rfl rfl
  · exact fun items => unescaped_of_brackets (Value.write_vector .raw items) rfl rfl
  · exact fun entries => unescaped_of_brackets (Value.write_map .raw entries) rfl rfl

/-- A backslash at the end of an argument leaves the letter `n` of the next one alone. -/
example :
    decoded [.string "a\\", .list [.symbol "n", .string "\\\\"], .string "\\n"] =
      ['a', '\\', ' ', '(', 'n', ' ', '\\', ')', ' ', '\n'] := by
  decide

/-- Decoding takes back the escaping of an argument list. -/
theorem decode_escaped (arguments : List Value) :
    decode (escaped arguments) = readable arguments := by
  rw [escaped, readable, Text.Escape.decode_spaced, List.map_map]
  congr 2
  funext argument
  exact Text.Escape.decode_encode (argument.write .readable)

end Printed

/-! ## Printing the text of `pr-str` -/

theorem Store.write_empty (store : Store) : store.write "" = store := by
  rw [Store.write, String.append_empty]

namespace Call

theorem outcome_applyBuiltin
    (builtin : Builtin)
    (arguments : List Value)
    (store : Store) :
    (applyBuiltin builtin arguments).outcome store =
      match builtin.result arguments with
      | .ok value => some (.ok value, store.write (builtin.written arguments))
      | .error fault => some (.error fault, store) := by
  rw [applyBuiltin, Action.outcome_bind, Action.outcome_ofExcept]
  cases builtin.result arguments <;> rfl

/-- A list that starts with the name of a builtin function is a call of it. -/
theorem outcome_eval_of_builtin
    {frame : FrameId}
    {builtin : Builtin}
    {identity : Nat}
    {store : Store}
    (bound : store.lookup? frame builtin.name = some (.native identity builtin))
    (depth : Nat)
    (parts : List Value) :
    (eval (depth + 2) frame (.list (.symbol builtin.name :: parts))).outcome store =
      (parts.mapM (eval (depth + 1) frame) >>= applyBuiltin builtin).outcome store := by
  have plain : SpecialForm.ofHead? (.symbol builtin.name) = none := by
    cases builtin <;> rfl
  have headEnds :
      (eval (depth + 1) frame (.symbol builtin.name)).outcome store =
        some (.ok (.native identity builtin), store) := by
    rw [eval_succ, Eval.evalForm, Action.outcome_lookup, bound]
  exact outcome_call_of_head plain headEnds parts

/-- To print the text that `pr-str` makes is to print the arguments readably. -/
theorem outcome_println_of_prStr
    (arguments : List Value)
    (store : Store) :
    (applyBuiltin .prStr arguments >>= fun text => applyBuiltin .println [text]).outcome store =
      (applyBuiltin .prn arguments).outcome store := by
  have decoded :
      Printed.decoded [.string (String.ofList (Printed.escaped arguments))] =
        Printed.readable arguments := by
    have single : ∀ contents : String,
        Printed.decoded [.string contents] = decode contents.toList := by
      intro contents
      rw [Printed.decoded, List.map_singleton, Value.spaced_singleton]
      rfl
    rw [single, String.toList_ofList, Printed.decode_escaped]
  rw [Action.outcome_bind, outcome_applyBuiltin, outcome_applyBuiltin]
  simp only [Builtin.result, Builtin.written, Store.write_empty, outcome_applyBuiltin, decoded]

/-- Two nested calls, of `println` and `pr-str`, are one call of `prn`. -/
theorem outcome_eval_println_of_prStr
    {frame : FrameId}
    {store : Store}
    {first second third : Nat}
    (println : store.lookup? frame Builtin.println.name = some (.native first Builtin.println))
    (prStr : store.lookup? frame Builtin.prStr.name = some (.native second Builtin.prStr))
    (prn : store.lookup? frame Builtin.prn.name = some (.native third Builtin.prn))
    (depth : Nat)
    (forms : List Value) :
    (eval (depth + 3) frame
          (.list [.symbol Builtin.println.name,
            .list (.symbol Builtin.prStr.name :: forms)])).outcome store =
      (eval (depth + 2) frame (.list (.symbol Builtin.prn.name :: forms))).outcome store := by
  rw [outcome_eval_of_builtin println, outcome_eval_of_builtin prn]
  rw [List.mapM_cons, List.mapM_nil, bind_assoc]
  simp only [pure_bind]
  rw [Action.outcome_bind, outcome_eval_of_builtin prStr, ← Action.outcome_bind, bind_assoc]
  rw [Action.outcome_bind, Action.outcome_bind]
  -- The forms are evaluated once in both calls; what is left are their values.
  cases (forms.mapM (eval (depth + 1) frame)).outcome store with
  | none => rfl
  | some ending =>
      obtain ⟨result, after⟩ := ending
      cases result with
      | error fault => rfl
      | ok arguments => exact outcome_println_of_prStr arguments after

end Call

namespace Printed

/-- The string that `pr-str` makes is read back from its readable form. -/
theorem ofSource_readable_escaped (arguments : List Value) :
    Form.ofSource (Value.string (String.ofList (escaped arguments))).readable =
      .ok (.string (String.ofList (escaped arguments))) := by
  apply Form.ofSource_readable
  · show Text.fitsQuotes (String.ofList (escaped arguments)).toList = true
    rw [String.toList_ofList]
    exact fitsQuotes_escaped arguments
  · rfl

/--
Decoded, the text that `pr-str` makes of any arguments is the text that `prn` prints of them.
So the application of `println` to the result of `pr-str` has the same outcome as the
application of `prn` to the arguments, and nested calls by the names of these functions have
the same outcome as well, whatever forms the arguments are made by.  The result of `pr-str`
is a string, which is read back from its readable form.
-/
theorem escaped_prints_readable (arguments : List Value) :
    decode (escaped arguments) = readable arguments ∧
      (∀ evaluate first second third store,
        (do
            let text ← Call.apply evaluate (.native first (.builtin .prStr)) arguments
            Call.apply evaluate (.native second (.builtin .println)) [text]).outcome store =
          (Call.apply evaluate (.native third (.builtin .prn)) arguments).outcome store) ∧
      (∀ depth frame store first second third forms,
        store.lookup? frame "println" = some (.native first (.builtin .println)) →
          store.lookup? frame "pr-str" = some (.native second (.builtin .prStr)) →
            store.lookup? frame "prn" = some (.native third (.builtin .prn)) →
              (eval (depth + 3) frame
                    (.list [.symbol "println", .list (.symbol "pr-str" :: forms)])).outcome
                  store =
                (eval (depth + 2) frame (.list (.symbol "prn" :: forms))).outcome store) ∧
      ∃ contents,
        Builtin.prStr.result arguments = .ok (.string contents) ∧
          Form.ofSource (Value.string contents).readable = .ok (.string contents) := by
  refine ⟨decode_escaped arguments, ?_, ?_, ?_⟩
  · intro evaluate first second third store
    exact Call.outcome_println_of_prStr arguments store
  · intro depth frame store first second third forms println prStr prn
    exact Call.outcome_eval_println_of_prStr println prStr prn depth forms
  · exact ⟨String.ofList (escaped arguments), rfl, ofSource_readable_escaped arguments⟩

/-- Forms of arguments: a string with an escaped backslash, and a call that itself prints. -/
def printingForms : List Value :=
  [.string "a\\\\", .list [.symbol "prn", .keyword "n"]]

theorem escaped_prints_readable_of_session :
    (Session.enter .empty).lookup? 0 "println" = some (.native 19 (.builtin .println)) ∧
      (Session.enter .empty).lookup? 0 "pr-str" = some (.native 17 (.builtin .prStr)) ∧
      (Session.enter .empty).lookup? 0 "prn" = some (.native 18 (.builtin .prn)) ∧
      (eval 4 0 (.list [.symbol "println", .list (.symbol "pr-str" :: printingForms)])).outcome
          (Session.enter .empty) =
        (eval 3 0 (.list (.symbol "prn" :: printingForms))).outcome (Session.enter .empty) ∧
      ((eval 3 0 (.list (.symbol "prn" :: printingForms))).outcome (Session.enter .empty)).map
          (fun ending => ending.2.output) =
        some ":n\n\"a\\\\\" nil\n" := by
  have println :
      (Session.enter .empty).lookup? 0 "println" = some (.native 19 (.builtin .println)) :=
    Store.lookup?_of_bound rfl rfl
  have prStr : (Session.enter .empty).lookup? 0 "pr-str" = some (.native 17 (.builtin .prStr)) :=
    Store.lookup?_of_bound rfl rfl
  have prn : (Session.enter .empty).lookup? 0 "prn" = some (.native 18 (.builtin .prn)) :=
    Store.lookup?_of_bound rfl rfl
  refine ⟨println, prStr, prn, ?_, by decide +kernel⟩
  exact (escaped_prints_readable [.string "a\\\\", .nil]).2.2.1 1 0 _ 19 17 18 printingForms
    println prStr prn

end Printed

end MiniLisp
