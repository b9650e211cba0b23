import MiniLisp.Prompt
import MiniLisp.Proofs.Eval.CleanSessions
import MiniLisp.Proofs.Eval.Depth
import MiniLisp.Proofs.Eval.Failures

/-!
# Idle lines

This module shows that lines without a form to evaluate have no effect at the prompt but
their own reports.  Such a line is blank, holds a comment, or cannot be read
(`Prompt.idleReport?`).  If the evaluation of every line ends, the prompt ends with code 0;
and without some of the idle lines the output is the same, and the reports are those of
the other lines, in the same order (`idle_lines_deletable`).

An idle line leaves the store as it was, but for text that was written earlier and is
forgotten before the next line is evaluated anyway (`Prompt.step_of_idle`).  So the two runs
of the prompt go through the same stores at the lines that they share, which is shown by
induction over the lines (`Prompt.exists_thins_of_terminates`).  A line whose evaluation fails
is not idle: it leaves what it had come to when it failed (`Prompt.exists_reaches_of_report`).
-/

namespace MiniLisp

/-- To a greater depth a text has the same response. -/
theorem Session.respond_refines
    {depth more : Nat}
    (deeper : depth ≤ more)
    (session : Session)
    (source : String) :
    (session.respond depth source).Refines (session.respond more source) := by
  have first : (session.evalFirst depth source).Refines (session.evalFirst more source) := by
    rw [evalFirst, evalFirst]
    split
    · exact .refl _
    · exact .refl _
    · next form _ _ => exact (eval_refines deeper session.root form).map some
  rw [respond, respond]
  exact first.bind fun _ => .refl _

namespace Prompt

/-- The text that answers output, one after the other. -/
def output : List Answer → String
  | [] => ""
  | answer :: answers => answer.output ++ output answers

/-- The reports of faults among answers, in order. -/
def messages (answers : List Answer) : List String :=
  (answers.map Answer.report).filter (· ≠ "")

/-- The items whose mark is not set. -/
def unmarked {Item : Type} : List Item → List Bool → List Item
  | item :: items, mark :: marks =>
    if mark then unmarked items marks else item :: unmarked items marks
  | _, _ => []

/-- The text that is made of lines. -/
def ofLines (lines : List (List Char)) : String :=
  String.ofList (['\n'].intercalate lines)

/-- What is reported of a line that holds no form to evaluate. -/
def idleReport? (line : List Char) : Option String :=
  match Text.trim line with
  | [] => some ""
  | text =>
    match Form.ofSource (String.ofList text) with
    | .error error => some ("Error: " ++ error.message ++ "\n")
    | .ok (.comment _) => some ""
    | .ok _ => none

/-- Each line has an answer to some depth, in the store that the lines before it leave. -/
inductive Terminates (session : Session) : List (List Char) → Store → Prop where
  | nil
      (store : Store) :
      Terminates session [] store
  | cons
      {depth : Nat}
      {line : List Char}
      {lines : List (List Char)}
      {store after : Store}
      {answer : Answer}
      (answered : step depth session line store = some (answer, after))
      (rest : Terminates session lines after) :
      Terminates session (line :: lines) store

/-! ## Lines of a text -/

theorem not_mem_of_mem_splitOn
    {text piece : List Char}
    (member : piece ∈ text.splitOn '\n') :
    '\n' ∉ piece := by
  induction text generalizing piece with
  | nil =>
      rw [List.splitOn_nil, List.mem_singleton] at member
      subst member
      exact List.not_mem_nil
  | cons character text ih =>
      rw [List.splitOn_cons_eq_if_modifyHead] at member
      split at member
      · rcases List.mem_cons.1 member with rfl | later
        · exact List.not_mem_nil
        · exact ih later
      · next different =>
          cases pieces : text.splitOn '\n' with
          | nil =>
              rw [pieces] at member
              cases member
          | cons first others =>
              rw [pieces] at member ih
              rcases List.mem_cons.1 member with rfl | later
              · rw [List.mem_cons, not_or]
                refine ⟨fun same => different ?_, ih List.mem_cons_self⟩
                rw [← same]
                rfl
              · exact ih (List.mem_cons_of_mem first later)

/-- The lines of a text that is made of lines, unless it is made of none. -/
theorem lines_ofLines
    {input : String}
    {kept : List (List Char)}
    (fromInput : ∀ line ∈ kept, line ∈ lines input)
    (notEmpty : kept ≠ []) :
    lines (ofLines kept) = kept := by
  rw [lines, ofLines, String.toList_ofList]
  apply List.splitOn_intercalate
  · intro line member
    exact not_mem_of_mem_splitOn (fromInput line member)
  · exact notEmpty

theorem mem_of_mem_unmarked
    {Item : Type}
    {items : List Item}
    {marks : List Bool}
    {item : Item}
    (member : item ∈ unmarked items marks) :
    item ∈ items := by
  fun_induction unmarked items marks with
  | case1 first items marks ih =>
      exact List.mem_cons_of_mem first (ih member)
  | case2 first items mark marks _ ih =>
      rcases List.mem_cons.1 member with rfl | later
      · exact List.mem_cons_self
      · exact List.mem_cons_of_mem first (ih later)
  | case3 => cases member

/-- A carriage return at the end of a line is trimmed with the other blank characters. -/
theorem trim_append_return (line : List Char) :
    Text.trim (line ++ ['\r']) = Text.trim line := by
  rw [Text.trim, Text.trim, List.dropWhile_append]
  cases line.dropWhile Text.isBlank with
  | nil => decide
  | cons first rest =>
      show ((first :: rest ++ ['\r']).reverse.dropWhile Text.isBlank).reverse = _
      rw [List.reverse_append]
      rfl

/-! ## One line -/

section

variable (session : Session)

/-- A line that is not blank is answered from the store without the text written earlier. -/
theorem step_of_not_blank
    (depth : Nat)
    {line : List Char}
    (notBlank : Text.trim line ≠ [])
    (store : Store) :
    step depth session line store =
      ((session.respond depth (String.ofList (Text.trim line))).outcome store.forgetOutput).map
        fun ending => (answer ending.2.output ending.1, ending.2) := by
  rw [step]
  split
  · next blank => exact absurd blank notBlank
  · generalize (session.respond depth _).outcome store.forgetOutput = ending
    rcases ending with _ | ⟨result, after⟩ <;> rfl

theorem step_of_blank
    (depth : Nat)
    {line : List Char}
    (blank : Text.trim line = [])
    (store : Store) :
    step depth session line store = some (⟨"", ""⟩, store) := by
  rw [step, blank]

/-- A line ends alike with a carriage return and without one. -/
theorem step_append_return
    (depth : Nat)
    (line : List Char)
    (store : Store) :
    step depth session (line ++ ['\r']) store = step depth session line store := by
  rw [step, step, trim_append_return]

/-- To a greater depth a line has the same answer. -/
theorem step_of_le
    {depth more : Nat}
    (deeper : depth ≤ more)
    {line : List Char}
    {store : Store}
    {ending : Answer × Store}
    (answered : step depth session line store = some ending) :
    step more session line store = some ending := by
  by_cases blank : Text.trim line = []
  · rw [step_of_blank session depth blank] at answered
    rw [step_of_blank session more blank, answered]
  · rw [step_of_not_blank session depth blank, Option.map_eq_some_iff] at answered
    obtain ⟨outcome, ends, rfl⟩ := answered
    rw [step_of_not_blank session more blank,
      (session.respond_refines deeper _).ends ends]
    rfl

theorem serve_line
    {session : Session}
    {depth : Nat}
    {line : List Char}
    {store after : Store}
    {answer : Answer}
    (answered : step depth session line store = some (answer, after))
    (deliveries : List Delivery) :
    serve depth session (.line line :: deliveries) store =
      (serve depth session deliveries after).map (.after answer) := by
  rw [serve, answered]

/-- What was written earlier has no effect on the answers to come. -/
theorem serve_congr
    (depth : Nat)
    (deliveries : List Delivery)
    {store other : Store}
    (same : store.forgetOutput = other.forgetOutput) :
    serve depth session deliveries store = serve depth session deliveries other := by
  induction deliveries generalizing store other with
  | nil => rfl
  | cons delivery deliveries ih =>
      cases delivery with
      | line text =>
          rw [serve, serve]
          by_cases blank : Text.trim text = []
          · rw [step_of_blank session depth blank, step_of_blank session depth blank]
            dsimp only
            rw [ih same]
          · rw [step_of_not_blank session depth blank, step_of_not_blank session depth blank,
              same]
      | interrupted =>
          rw [serve, serve]
          exact ih same
      | failed description => rfl

/-- An idle line outputs nothing, and changes nothing that a later line depends on. -/
theorem step_of_idle
    (depth : Nat)
    {line : List Char}
    {report : String}
    (idle : idleReport? line = some report)
    (store : Store) :
    ∃ after,
      step depth session line store = some (⟨"", report⟩, after) ∧
        after.forgetOutput = store.forgetOutput := by
  rw [idleReport?] at idle
  split at idle
  · next blank =>
      cases idle
      exact ⟨store, step_of_blank session depth blank store, rfl⟩
  · next notBlank =>
      rw [step_of_not_blank session depth notBlank, Session.respond]
      split at idle
      · next error unreadable =>
          cases idle
          rw [Session.evalFirst, unreadable]
          exact ⟨store.forgetOutput, rfl, rfl⟩
      · next text isComment =>
          cases idle
          rw [Session.evalFirst, isComment]
          exact ⟨store.forgetOutput, rfl, rfl⟩
      · cases idle

end

/-! ## All lines -/

/--
To a depth and to every greater one, the prompt ends with answers to all lines; without the
marked lines it ends with the answers to the others, which output the same.
-/
structure Thins
    (session : Session)
    (lines : List (List Char))
    (marks : List Bool)
    (store : Store)
    (depth : Nat)
    (answers : List Answer) :
    Prop where
  counted : answers.length = lines.length
  whole :
    ∀ more, depth ≤ more →
      serve more session (lines.map .line) store = some ⟨answers, 0⟩
  thinned :
    ∀ more, depth ≤ more →
      serve more session ((unmarked lines marks).map .line) store =
        some ⟨unmarked answers marks, 0⟩
  sameOutput : output (unmarked answers marks) = output answers
  reported :
    ∀ line answer,
      ((line, answer), true) ∈ (lines.zip answers).zip marks →
        idleReport? line = some answer.report

namespace Thins

variable
  {session : Session}
  {depth : Nat}
  {line : List Char}
  {lines : List (List Char)}
  {marks : List Bool}
  {store after : Store}
  {answers : List Answer}

theorem nil
    (session : Session)
    (store : Store) :
    Thins session [] [] store 0 [] where
  counted := rfl
  whole := fun _ _ => rfl
  thinned := fun _ _ => rfl
  sameOutput := rfl
  reported := nofun

theorem mono
    {more : Nat}
    (deeper : depth ≤ more)
    (thins : Thins session lines marks store depth answers) :
    Thins session lines marks store more answers where
  counted := thins.counted
  whole := fun deep further => thins.whole deep (deeper.trans further)
  thinned := fun deep further => thins.thinned deep (deeper.trans further)
  sameOutput := thins.sameOutput
  reported := thins.reported

/-- A line is answered in front of the others, and is not marked. -/
theorem keep
    {answer : Answer}
    (answered : step depth session line store = some (answer, after))
    (thins : Thins session lines marks after depth answers) :
    Thins session (line :: lines) (false :: marks) store depth (answer :: answers) where
  counted := congrArg Nat.succ thins.counted
  whole := by
    intro more deeper
    rw [List.map_cons, serve_line (step_of_le session deeper answered), thins.whole more deeper]
    rfl
  thinned := by
    intro more deeper
    show serve more session (.line line :: (unmarked lines marks).map .line) store = _
    rw [serve_line (step_of_le session deeper answered), thins.thinned more deeper]
    rfl
  sameOutput := congrArg (answer.output ++ ·) thins.sameOutput
  reported := by
    intro other reply member
    rcases List.mem_cons.1 member with same | member
    · cases same
    · exact thins.reported other reply member

/-- An idle line in front of the others is marked, and they are answered alike without it. -/
theorem drop
    {report : String}
    (idle : idleReport? line = some report)
    (answered : step depth session line store = some (⟨"", report⟩, after))
    (unchanged : after.forgetOutput = store.forgetOutput)
    (thins : Thins session lines marks after depth answers) :
    Thins session (line :: lines) (true :: marks) store depth (⟨"", report⟩ :: answers) where
  counted := congrArg Nat.succ thins.counted
  whole := by
    intro more deeper
    rw [List.map_cons, serve_line (step_of_le session deeper answered), thins.whole more deeper]
    rfl
  thinned := by
    intro more deeper
    rw [← serve_congr session more _ unchanged]
    exact thins.thinned more deeper
  sameOutput := by
    show output (unmarked answers marks) = "" ++ output answers
    rw [thins.sameOutput, String.empty_append]
  reported := by
    intro other reply member
    rcases List.mem_cons.1 member with same | member
    · cases same
      exact idle
    · exact thins.reported other reply member

end Thins

/-- If every line has an answer, marked lines that are idle can be left out. -/
theorem exists_thins_of_terminates
    {session : Session}
    {lines : List (List Char)}
    {store : Store}
    (terminates : Terminates session lines store)
    {marks : List Bool}
    (marked : marks.length = lines.length)
    (idle : ∀ line, (line, true) ∈ lines.zip marks → (idleReport? line).isSome = true) :
    ∃ depth answers, Thins session lines marks store depth answers := by
  induction terminates generalizing marks with
  | nil store =>
      rw [List.length_nil, List.length_eq_zero_iff] at marked
      subst marked
      exact ⟨0, [], .nil session store⟩
  | @cons depth line lines store after answer answered _ ih =>
      cases marks with
      | nil => cases marked
      | cons mark marks =>
          obtain ⟨later, answers, thins⟩ :=
            ih (Nat.succ.inj marked) fun line member => idle line (List.mem_cons_of_mem _ member)
          -- One depth for the line and for all lines behind it.
          have thins := thins.mono (le_max_right depth later)
          have answered := step_of_le session (le_max_left depth later) answered
          cases mark with
          | false => exact ⟨_, _, .keep answered thins⟩
          | true =>
              obtain ⟨report, isIdle⟩ := Option.isSome_iff_exists.1 (idle line List.mem_cons_self)
              obtain ⟨idleAfter, idleAnswered, unchanged⟩ :=
                step_of_idle session (max depth later) isIdle store
              rw [answered] at idleAnswered
              cases idleAnswered
              exact ⟨_, _, .drop isIdle answered unchanged thins⟩

/-- A text that is made of kept lines has their answers, or an empty one if there are none. -/
theorem exists_ending_ofLines
    {input : String}
    {kept : List (List Char)}
    (fromInput : ∀ line ∈ kept, line ∈ lines input)
    {depth : Nat}
    {answers : List Answer}
    (served :
      ∀ more, depth ≤ more →
        serve more (Session.next .empty) (kept.map .line) (Session.enter .empty) =
          some ⟨answers, 0⟩) :
    ∃ replies,
      (∀ more, depth ≤ more → ending more (ofLines kept) = some ⟨replies, 0⟩) ∧
        output replies = output answers ∧
        messages replies = messages answers := by
  cases kept with
  | nil =>
      -- Even the empty text has a line, which is blank.
      cases served depth le_rfl
      exact ⟨[⟨"", ""⟩], fun _ _ => rfl, rfl, rfl⟩
  | cons line kept =>
      refine ⟨answers, ?_, rfl, rfl⟩
      intro more deeper
      rw [ending, lines_ofLines fromInput (List.cons_ne_nil line kept)]
      exact served more deeper

theorem terminates_of_serve
    {depth : Nat}
    {session : Session}
    {lines : List (List Char)}
    {store : Store}
    (ends : (serve depth session (lines.map .line) store).isSome = true) :
    Terminates session lines store := by
  induction lines generalizing store with
  | nil => exact .nil store
  | cons line lines ih =>
      cases answered : step depth session line store with
      | none =>
          rw [List.map_cons, serve, answered] at ends
          cases ends
      | some ending =>
          rw [List.map_cons, serve_line answered, Option.isSome_map] at ends
          exact .cons answered (ih ends)

/-! ## Lines that fail -/

/-- The text that answers a value. -/
def shown? : Value → Option String
  | .nil => none
  | value => some value.readable

/-- A line with a form is answered with the value or the fault of the form. -/
theorem step_of_form
    {line : List Char}
    {form : Value}
    (read : Form.ofSource (String.ofList (Text.trim line)) = .ok form)
    (noComment : ∀ text, form ≠ .comment text)
    (depth : Nat)
    (session : Session)
    (store : Store) :
    step depth session line store =
      ((eval depth session.root form).outcome store.forgetOutput).map fun ending =>
        (answer ending.2.output (ending.1.map shown?), ending.2) := by
  have notBlank : Text.trim line ≠ [] := by
    intro blank
    rw [blank, Form.ofSource_eq_run, Cursor.tokens_of_next?_eq_none rfl] at read
    cases read
  have evaluated :
      session.evalFirst depth (String.ofList (Text.trim line)) =
        some <$> eval depth session.root form := by
    rw [Session.evalFirst, read]
    cases form with
    | comment text => exact absurd rfl (noComment text)
    | _ => rfl
  rw [step_of_not_blank session depth notBlank, Session.respond_eq_map, evaluated,
    Functor.map_map, Action.outcome_map]
  rcases (eval depth session.root form).outcome store.forgetOutput with
    _ | ⟨fault | value, after⟩
  · rfl
  · rfl
  · cases value <;> rfl

theorem exists_form_of_not_idle
    {line : List Char}
    (notIdle : idleReport? line = none) :
    ∃ form,
      Form.ofSource (String.ofList (Text.trim line)) = .ok form ∧
        ∀ text, form ≠ .comment text := by
  rw [idleReport?] at notIdle
  split at notIdle
  · cases notIdle
  · split at notIdle
    · cases notIdle
    · cases notIdle
    · next form noComment read => exact ⟨form, read, fun text same => noComment text same⟩

/-- A line that fails is evaluated to a last action that fails, and this undoes nothing. -/
theorem exists_reaches_of_report
    {depth : Nat}
    {session : Session}
    {line : List Char}
    {store after : Store}
    {answer : Answer}
    (answered : step depth session line store = some (answer, after))
    (notIdle : idleReport? line = none)
    (reported : answer.report ≠ "") :
    ∃ form fault last moment,
      Form.ofSource (String.ofList (Text.trim line)) = .ok form ∧
        answer = ⟨after.output, "Error: " ++ fault.message ++ "\n"⟩ ∧
        Eval.Reaches session.root depth form store.forgetOutput last moment ∧
        last.outcome moment = some (.error fault, after) ∧
        moment.Keeps after := by
  obtain ⟨form, read, noComment⟩ := exists_form_of_not_idle notIdle
  rw [step_of_form read noComment, Option.map_eq_some_iff] at answered
  obtain ⟨⟨result, left⟩, ends, same⟩ := answered
  cases result with
  | ok value =>
      cases same
      cases shown : shown? value with
      | none => simp [Except.map, Prompt.answer, shown] at reported
      | some text => simp [Except.map, Prompt.answer, shown] at reported
  | error fault =>
      cases same
      obtain ⟨last, moment, reaches, failed⟩ := (eval_fails_iff _ _ _ _ _ _).1 ends
      exact ⟨form, fault, last, moment, read, rfl, reaches, failed,
        reaches.keeps moment _ _ failed⟩

end Prompt

/--
The lines of an input text may be deleted that are blank, hold a comment or cannot be read.
If every line has an answer to some depth, then to every sufficient depth the prompt ends
with code 0 on the whole text and on the rest of it, with the same output; the reports of
the rest are those of its lines in the whole text, and of each deleted line the whole text
has the one report that is due, if any.

Such a line leaves all frames and functions as they were.  A line whose evaluation fails
leaves what was defined up to the moment of the failure.
-/
theorem idle_lines_deletable :
    (∀ input deleted,
      Prompt.Terminates (Session.next .empty) (Prompt.lines input) (Session.enter .empty) →
        deleted.length = (Prompt.lines input).length →
        (∀ line,
          (line, true) ∈ (Prompt.lines input).zip deleted →
            (Prompt.idleReport? line).isSome = true) →
        ∃ depth answers replies,
          (∀ more, depth ≤ more →
            Prompt.ending more input = some ⟨answers, 0⟩ ∧
              Prompt.ending more (Prompt.ofLines (Prompt.unmarked (Prompt.lines input) deleted)) =
                some ⟨replies, 0⟩) ∧
            Prompt.output replies = Prompt.output answers ∧
            Prompt.messages replies = Prompt.messages (Prompt.unmarked answers deleted) ∧
            answers.length = (Prompt.lines input).length ∧
            ∀ line answer,
              ((line, answer), true) ∈ ((Prompt.lines input).zip answers).zip deleted →
                Prompt.idleReport? line = some answer.report) ∧
      (∀ depth session line store report,
        Prompt.idleReport? line = some report →
          ∃ after,
            Prompt.step depth session line store = some (⟨"", report⟩, after) ∧
              after.forgetOutput = store.forgetOutput) ∧
      ∀ depth session line store answer after,
        Prompt.step depth session line store = some (answer, after) →
          Prompt.idleReport? line = none →
          answer.report ≠ "" →
          ∃ form fault last moment,
            Form.ofSource (String.ofList (Text.trim line)) = .ok form ∧
              answer = ⟨after.output, "Error: " ++ fault.message ++ "\n"⟩ ∧
              Eval.Reaches session.root depth form store.forgetOutput last moment ∧
              last.outcome moment = some (.error fault, after) ∧
              moment.Keeps after := by
  refine ⟨?_, ?_, ?_⟩
  · intro input deleted terminates marked idle
    obtain ⟨depth, answers, thins⟩ := Prompt.exists_thins_of_terminates terminates marked idle
    obtain ⟨replies, replied, sameOutput, sameMessages⟩ :=
      Prompt.exists_ending_ofLines (fun _ => Prompt.mem_of_mem_unmarked) thins.thinned
    refine ⟨depth, answers, replies, ?_, sameOutput.trans thins.sameOutput, sameMessages,
      thins.counted, thins.reported⟩
    intro more deeper
    exact ⟨thins.whole more deeper, replied more deeper⟩
  · intro depth session line store report idle
    exact Prompt.step_of_idle session depth idle store
  · intro depth session line store answer after answered notIdle reported
    exact Prompt.exists_reaches_of_report answered notIdle reported

/-- A sequence that fails behind a definition. -/
def failingSequence : Value :=
  .list
    [.symbol "do", .list [.symbol "def!", .symbol "a", .number 1],
      .list [.symbol "def!", .symbol "b"]]

/-- The store that the sequence leaves. -/
def definedStore : Store := (Session.enter .empty).define 0 "a" (.number 1)

private theorem read_failingSequence :
    Form.ofSource (String.ofList (Text.trim "(do (def! a 1) (def! b))".toList)) =
      .ok failingSequence := by
  have tokens :
      Token.ofSource (String.ofList (Text.trim "(do (def! a 1) (def! b))".toList)) =
        [⟨['('], ⟨1, 1⟩⟩, ⟨['d', 'o'], ⟨1, 2⟩⟩, ⟨['('], ⟨1, 5⟩⟩, ⟨['d', 'e', 'f', '!'], ⟨1, 6⟩⟩,
          ⟨['a'], ⟨1, 11⟩⟩, ⟨['1'], ⟨1, 13⟩⟩, ⟨[')'], ⟨1, 14⟩⟩, ⟨['('], ⟨1, 16⟩⟩,
          ⟨['d', 'e', 'f', '!'], ⟨1, 17⟩⟩, ⟨['b'], ⟨1, 22⟩⟩, ⟨[')'], ⟨1, 23⟩⟩,
          ⟨[')'], ⟨1, 24⟩⟩] := by decide +kernel
  rw [Form.ofSource_eq_run]
  show (Machine.run [] (Token.ofSource _)).1 = _
  rw [tokens]
  rfl

private theorem step_failingSequence :
    Prompt.step 3 (Session.next .empty) "(do (def! a 1) (def! b))".toList (Session.enter .empty) =
      some
        (⟨"", "Error: wrong number of arguments to 'def!': expected 2, got 1\n"⟩,
          definedStore) := by
  rw [Prompt.step_of_form read_failingSequence nofun]
  rfl

private theorem read_bracket :
    Form.ofSource (String.ofList (Text.trim [')'])) = .error (.unopened .round ⟨1, 1⟩) := by
  have tokens : Token.ofSource (String.ofList (Text.trim [')'])) = [⟨[')'], ⟨1, 1⟩⟩] := by
    decide +kernel
  rw [Form.ofSource_eq_run]
  show (Machine.run [] (Token.ofSource _)).1 = _
  rw [tokens]
  rfl

private theorem idleReport?_bracket :
    Prompt.idleReport? [')'] = some "Error: unbalanced delimiter ')' at 1:1\n" := by
  rw [Prompt.idleReport?]
  split
  · next blank => cases blank
  · next text trimmed => rw [read_bracket]; rfl

private theorem step_name :
    Prompt.step 3 (Session.next .empty) ['a'] definedStore = some (⟨"1\n", ""⟩, definedStore) := by
  have read : Form.ofSource (String.ofList (Text.trim ['a'])) = .ok (.symbol "a") := by
    have tokens : Token.ofSource (String.ofList (Text.trim ['a'])) = [⟨['a'], ⟨1, 1⟩⟩] := by
      decide +kernel
    rw [Form.ofSource_eq_run]
    show (Machine.run [] (Token.ofSource _)).1 = _
    rw [tokens]
    rfl
  have found : definedStore.lookup? 0 "a" = some (.number 1) :=
    Store.lookup?_of_bound rfl rfl
  have evaluated :
      (eval 3 (Session.next .empty).root (.symbol "a")).outcome definedStore.forgetOutput =
        some (.ok (.number 1), definedStore) := by
    show (Action.lookup 0 "a").outcome definedStore = _
    rw [Action.outcome_lookup, found]
  rw [Prompt.step_of_form read nofun, evaluated]
  rfl

/-- An unmatched bracket between a line that fails and a line that reads what it defined. -/
theorem idle_lines_deletable_of_bracket :
    (∃ depth answers replies,
      (∀ more, depth ≤ more →
        Prompt.ending more "(do (def! a 1) (def! b))\n)\na" = some ⟨answers, 0⟩ ∧
          Prompt.ending more "(do (def! a 1) (def! b))\na" = some ⟨replies, 0⟩) ∧
        Prompt.output replies = Prompt.output answers ∧
        Prompt.messages replies =
          Prompt.messages (Prompt.unmarked answers [false, true, false])) ∧
      (∃ after,
        Prompt.step 3 (Session.next .empty) [')'] definedStore =
            some (⟨"", "Error: unbalanced delimiter ')' at 1:1\n"⟩, after) ∧
          after.forgetOutput = definedStore.forgetOutput) ∧
      ∃ last moment,
        Eval.Reaches 0 3 failingSequence (Session.enter .empty) last moment ∧
          last.outcome moment = some (.error (.arity "def!" (.exactly 2) 1), definedStore) ∧
          moment.Keeps definedStore := by
  have after := idle_lines_deletable.2.1 3 (Session.next .empty) _ definedStore _
    idleReport?_bracket
  refine ⟨?_, after, ?_⟩
  · obtain ⟨after, answered, unchanged⟩ := after
    have lines :
        Prompt.lines "(do (def! a 1) (def! b))\n)\na" =
          ["(do (def! a 1) (def! b))".toList, [')'], ['a']] := by decide +kernel
    have terminates :
        Prompt.Terminates (Session.next .empty)
          (Prompt.lines "(do (def! a 1) (def! b))\n)\na") (Session.enter .empty) := by
      apply @Prompt.terminates_of_serve 3
      rw [lines, List.map_cons, List.map_cons, List.map_cons, List.map_nil,
        Prompt.serve_line step_failingSequence, Prompt.serve_line answered,
        Prompt.serve_congr _ 3 _ unchanged, Prompt.serve_line step_name]
      rfl
    have idle :
        ∀ line,
          (line, true) ∈
              (Prompt.lines "(do (def! a 1) (def! b))\n)\na").zip [false, true, false] →
            (Prompt.idleReport? line).isSome = true := by
      intro line member
      rw [lines] at member
      simp only [List.zip_cons_cons, List.zip_nil_right, List.mem_cons, Prod.mk.injEq,
        Bool.true_eq_false, and_false, and_true, false_or, or_false, List.not_mem_nil] at member
      rw [member, idleReport?_bracket]
      rfl
    obtain ⟨depth, answers, replies, ends, sameOutput, sameMessages, -⟩ :=
      idle_lines_deletable.1 "(do (def! a 1) (def! b))\n)\na" [false, true, false] terminates
        rfl idle
    exact ⟨depth, answers, replies, ends, sameOutput, sameMessages⟩
  · have notIdle : Prompt.idleReport? "(do (def! a 1) (def! b))".toList = none := by
      rw [Prompt.idleReport?]
      split
      · next blank => cases blank
      · next text trimmed => rw [read_failingSequence]; rfl
    obtain ⟨form, fault, last, moment, read, -, reaches, failed, keeps⟩ :=
      idle_lines_deletable.2.2 3 (Session.next .empty) _ _ _ _ step_failingSequence notIdle
        (by decide)
    cases read_failingSequence.symm.trans read
    have computed :
        (eval 3 0 failingSequence).outcome (Session.enter .empty) =
          some (.error (.arity "def!" (.exactly 2) 1), definedStore) := rfl
    cases computed.symm.trans (reaches.fails failed)
    exact ⟨last, moment, reaches, failed, keeps⟩

end MiniLisp
