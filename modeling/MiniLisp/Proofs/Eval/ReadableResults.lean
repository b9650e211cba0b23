import MiniLisp.Proofs.Eval.Reachable
import MiniLisp.Proofs.Form.RoundTrip
import MiniLisp.Proofs.Value.Quotable

/-!
# Results that can be read back

This module shows when the text of a result is read back as the result.

Strings are stored as they are written, and the concatenation of raw texts is
stored without an escape.  A keyword whose name ends in a backslash therefore makes
a string that no quote closes.  Nothing else does: if the names of all keywords in a
text fit between quotes, then a result without functions is read back from its text.

Forms that are read are printable, and what a program makes of them keeps the
conditions on strings, keywords and maps (`Invariant.plain`).  Symbols and comments
stay in the bodies of functions.
-/

namespace MiniLisp

namespace Value

/-- The name of a keyword fits between quotes. -/
def hasFittingKeyword : Value → Bool
  | keyword name => Text.fitsQuotes name.toList
  | _ => true

/-- A printable form whose maps are ordered and whose keywords have names that fit in strings. -/
structure IsPlainForm (form : Value) : Prop where
  legible : form.Legible
  keywords : form.everywhere hasFittingKeyword = true

theorem IsPlainForm.part
    {form part : Value}
    (plain : form.IsPlainForm)
    (member : part ∈ form.parts) :
    part.IsPlainForm where
  legible := (legible_iff.1 plain.legible).2.2 part member
  keywords := (everywhere_iff.1 plain.keywords).2 part member

/-- What a program can make, but for its parts. -/
def IsPlainHere : Value → Prop
  | string contents => Text.fitsQuotes contents.toList = true
  | keyword name =>
    name.toList.all (!Lexeme.breaksWord ·) = true ∧ Text.fitsQuotes name.toList = true
  | map entries => Entries.Ascending entries
  | symbol _ => False
  | closure _ _ body _ => body.IsPlainForm
  | comment _ => False
  | _ => True

/-- What a program can make, at every depth. -/
abbrev IsPlain (value : Value) : Prop :=
  value.EachPart IsPlainHere

namespace IsPlain

/-- The raw text of what a program makes fits between quotes. -/
theorem quotable
    {value : Value}
    (plain : value.IsPlain) :
    value.everywhere isQuotableHere = true := by
  induction plain with
  | @intro value here inParts ih =>
      refine everywhere_iff.2 ⟨?_, ih⟩
      cases value with
      | string contents => exact here
      | keyword name => exact here.2
      | symbol name => exact here.elim
      | _ => rfl

/-- Without functions, what a program makes is printable. -/
theorem legible
    {value : Value}
    (plain : value.IsPlain)
    (noFunction : value.everywhere (!·.isFunction) = true) :
    value.Legible := by
  induction plain with
  | @intro value here inParts ih =>
      obtain ⟨noFunctionHere, noFunctionInParts⟩ := everywhere_iff.1 noFunction
      refine legible_iff.2
        ⟨?_, ?_, fun part member => ih part member (noFunctionInParts part member)⟩
      · cases value with
        | string contents => exact here
        | keyword name => exact here.1
        | symbol name => exact here.elim
        | closure => cases noFunctionHere
        | native => cases noFunctionHere
        | comment text => exact here.elim
        | _ => rfl
      · cases value with
        | map entries => exact decide_eq_true here
        | _ => rfl

end IsPlain

/-- Forms that stand for themselves are plain values. -/
theorem IsPlainForm.isPlain_of_isConstant
    {form : Value}
    (plain : form.IsPlainForm)
    (constant : form.isConstant = true) :
    form.IsPlain := by
  have printable := (legible_iff.1 plain.legible).1
  have keywords := (everywhere_iff.1 plain.keywords).1
  cases form with
  | string contents => exact .leaf printable rfl
  | keyword name => exact .leaf ⟨printable, keywords⟩ rfl
  | closure => cases printable
  | native => cases printable
  | symbol => cases constant
  | list => cases constant
  | vector => cases constant
  | map => cases constant
  | comment => cases constant
  | _ => exact .leaf trivial rfl

theorem IsPlainForm.noFunction
    {form : Value}
    (plain : form.IsPlainForm) :
    form.everywhere (!·.isFunction) = true :=
  noFunction_of_isPrintable plain.legible.printable

end Value

/-! ## The invariant -/

namespace Invariant

/-- Forms are plain forms, and values are plain and within the store. -/
def plain : Invariant where
  form := fun _ form => form.IsPlainForm
  value := fun store value => value.Within store ∧ value.IsPlain
  form_mono := fun _ good => good
  value_mono := fun precedes good => ⟨good.1.mono precedes, good.2⟩
  form_part := fun good member => good.part member
  value_constant := fun good constant =>
    ⟨Value.within_of_no_function _ good.noFunction, good.isPlain_of_isConstant constant⟩
  value_nil := fun store => ⟨within.value_nil store, .leaf trivial rfl⟩
  value_boolean := fun store truth => ⟨within.value_boolean store truth, .leaf trivial rfl⟩
  value_number := fun store integer => ⟨within.value_number store integer, .leaf trivial rfl⟩
  value_list := fun good =>
    ⟨within.value_list fun item member => (good item member).1,
      .intro trivial fun item member => (good item member).2⟩
  value_vector := fun good =>
    ⟨within.value_vector fun item member => (good item member).1,
      .intro trivial fun item member => (good item member).2⟩
  value_map := by
    intro store pairs good
    constructor
    · exact within.value_map fun pair member => ⟨(good pair member).1.1, (good pair member).2.1⟩
    · refine .intro (Entries.ofPairs_ascending pairs) ?_
      apply Entries.forall_items_ofPairs
      exact fun pair member => ⟨(good pair member).1.2, (good pair member).2.2⟩
  value_raw := by
    intro store arguments good
    have fits := Printed.fitsQuotes_raw fun argument member => (good argument member).2.quotable
    refine ⟨Value.within_of_leaf rfl rfl, .leaf ?_ rfl⟩
    rw [Value.IsPlainHere, String.toList_ofList]
    exact fits
  value_escaped := by
    intro store arguments good
    refine ⟨Value.within_of_leaf rfl rfl, .leaf ?_ rfl⟩
    rw [Value.IsPlainHere, String.toList_ofList]
    exact Printed.fitsQuotes_escaped arguments
  value_closure := by
    intro store names parameters body home denoted good made
    have bodyWithin := Value.within_of_no_function store good.noFunction
    exact ⟨within.value_closure denoted bodyWithin made, .leaf good rfl⟩
  closure_body := fun good => ⟨good.2.here, good.1.here.2 _ rfl⟩

/-- The invariant holds in every fresh session. -/
theorem plain_holds_enter : plain.Holds (Session.enter .empty) := by
  apply Holds.enter (.empty _)
  intro store builtin
  exact ⟨Value.within_native (Nat.lt_succ_self store.functions) builtin, .leaf trivial rfl⟩

end Invariant

/-! ## Reading and evaluating -/

/-- The first form of a text is read and evaluated, if it is no comment. -/
theorem Session.exists_of_evalFirst
    {session : Session}
    {depth : Nat}
    {source : String}
    {store after : Store}
    {value : Value}
    (ends : (session.evalFirst depth source).outcome store = some (.ok (some value), after)) :
    ∃ form,
      Form.ofSource source = .ok form ∧ (∀ text, form ≠ .comment text) ∧
        (eval depth session.root form).outcome store = some (.ok value, after) := by
  unfold evalFirst at ends
  split at ends
  · cases ends
  · cases ends
  · next form noComment read =>
      rw [map_eq_pure_bind] at ends
      obtain ⟨result, between, evaluated, given⟩ := Action.exists_of_outcome_bind_eq_ok ends
      rw [Action.outcome_pure] at given
      cases given
      exact ⟨form, read, noComment, evaluated⟩

/--
Let a text be evaluated in a fresh session, and let the names of all keywords in its form
fit between quotes.  If the result has no functions, it is read back from its text.
-/
theorem ofSource_readable_of_evalFirst
    (depth : Nat)
    {source : String}
    {form : Value}
    (read : Form.ofSource source = .ok form)
    (fits : form.everywhere Value.hasFittingKeyword = true)
    {value : Value}
    {after : Store}
    (ends :
      ((Session.next .empty).evalFirst depth source).outcome (Session.enter .empty) =
        some (.ok (some value), after))
    (noFunction : value.everywhere (!·.isFunction) = true) :
    Form.ofSource value.readable = .ok value := by
  obtain ⟨other, sameRead, noComment, evaluated⟩ := Session.exists_of_evalFirst ends
  rw [read] at sameRead
  cases sameRead
  rcases Form.legible_of_ofSource read with ⟨text, isComment⟩ | legible
  · exact absurd isComment (noComment text)
  · have made : (Session.next .empty).root < (Session.enter .empty).nextFrame := by decide +kernel
    have kept :=
      Invariant.maintains_eval .plain depth _ _ form made ⟨legible, fits⟩
        Invariant.plain_holds_enter _ _ evaluated
    have readable := (kept.2.2 value rfl).2.legible noFunction
    exact Form.ofSource_readable readable.printable readable.ordered

/-- A printable form is evaluated from its text, and gives what it shows. -/
theorem Session.exists_of_evalFirst_readable
    (depth : Nat)
    {form : Value}
    (legible : form.Legible)
    (shown : String)
    (shows :
      ((eval depth (Session.next .empty).root form).outcome (enter .empty)).map
          (fun ending =>
            ending.1.map fun value => (value.everywhere (!·.isFunction), value.readable)) =
        some (.ok (true, shown))) :
    ∃ value after,
      ((Session.next .empty).evalFirst depth form.readable).outcome (enter .empty) =
          some (.ok (some value), after) ∧
        value.everywhere (!·.isFunction) = true ∧ value.readable = shown := by
  obtain ⟨⟨result, after⟩, evaluated, seen⟩ := Option.map_eq_some_iff.1 shows
  cases result with
  | error fault => cases seen
  | ok value =>
      obtain ⟨noFunction, sameText⟩ := Prod.mk.inj (Except.ok.inj seen)
      refine ⟨value, after, ?_, noFunction, sameText⟩
      have whole :
          (Session.next .empty).evalFirst depth form.readable =
            some <$> eval depth (Session.next .empty).root form := by
        rw [evalFirst, Form.ofSource_readable legible.printable legible.ordered]
        cases form with
        | comment text => cases legible.printable
        | _ => rfl
      rw [whole, map_eq_pure_bind, Action.outcome_bind, evaluated]
      rfl

/-- The form that joins a keyword, with a backslash inside its name, and an escaped quote. -/
def joinedWithQuote : Value :=
  .list [.symbol "str", .keyword "a\\b", .string "\\\""]

theorem ofSource_readable_of_evalFirst_of_join :
    joinedWithQuote.readable = "(str :a\\b \"\\\"\")" ∧
      ∃ value after,
        ((Session.next .empty).evalFirst 3 joinedWithQuote.readable).outcome
              (Session.enter .empty) =
            some (.ok (some value), after) ∧
          value.readable = "\":a\\b\\\"\"" ∧ Form.ofSource value.readable = .ok value := by
  have legible : joinedWithQuote.Legible := ⟨by decide +kernel, by decide +kernel⟩
  obtain ⟨value, after, ends, noFunction, sameText⟩ :=
    Session.exists_of_evalFirst_readable 3 legible "\":a\\b\\\"\"" (by decide +kernel)
  refine ⟨by decide +kernel, value, after, ends, sameText, ?_⟩
  exact ofSource_readable_of_evalFirst 3
    (Form.ofSource_readable legible.printable legible.ordered) (by decide +kernel) ends noFunction

/-- The form that makes a string of a keyword whose name ends in a backslash. -/
def joinedBackslash : Value :=
  .list [.symbol "str", .keyword "a\\"]

private theorem ofSource_openString :
    Form.ofSource "\":a\\\"" = .error (.unterminated ['"', ':', 'a', '\\', '"'] ⟨1, 1⟩) := by
  have tokens :
      (Cursor.start "\":a\\\"".toList).tokens = [⟨['"', ':', 'a', '\\', '"'], ⟨1, 1⟩⟩] := by
    rw [Cursor.tokens_of_next? rfl, Cursor.tokens_of_next?_eq_none rfl]
    rfl
  rw [Form.ofSource_eq_run, tokens]
  rfl

/-- The string that a keyword makes whose name ends in a backslash is not read back. -/
theorem roundtrip_fails_of_backslash :
    joinedBackslash.readable = "(str :a\\)" ∧
      ∃ value after,
        ((Session.next .empty).evalFirst 3 joinedBackslash.readable).outcome
              (Session.enter .empty) =
            some (.ok (some value), after) ∧
          value.everywhere (!·.isFunction) = true ∧ value.readable = "\":a\\\"" ∧
            Form.ofSource value.readable =
              .error (.unterminated ['"', ':', 'a', '\\', '"'] ⟨1, 1⟩) := by
  have legible : joinedBackslash.Legible := ⟨by decide +kernel, by decide +kernel⟩
  obtain ⟨value, after, ends, noFunction, sameText⟩ :=
    Session.exists_of_evalFirst_readable 3 legible "\":a\\\"" (by decide +kernel)
  refine ⟨by decide +kernel, value, after, ends, noFunction, sameText, ?_⟩
  rw [sameText, ofSource_openString]

end MiniLisp
