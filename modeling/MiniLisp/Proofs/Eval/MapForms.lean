import MiniLisp.Eval
import MiniLisp.Proofs.Form.Machine
import MiniLisp.Proofs.Value.KeptEntries

/-!
# Maps in a program

This module shows how a map that is written in a program is evaluated.

The reader makes an ordered map of the forms that stand between the braces, before
anything is evaluated.  A pair whose key form is repeated later is therefore never
evaluated, and the others are evaluated in ascending order of their key forms, which
need not be the order in which they are written.  Apart from that, evaluation is that
of a sequence: each key is evaluated before its value, and of two pairs whose keys
evaluate to equal values the one that was evaluated later stays
(`mapForm_outcome_eq_evalItems`).
-/

namespace MiniLisp

namespace Eval

/-- The evaluation of alternating keys and values in order, and the map that they make. -/
def evalItems
    (evaluate : Evaluator)
    (frame : FrameId)
    (items : List Value) :
    Action Value := do
  let values ← items.mapM (evaluate frame)
  return .map (Entries.ofPairs (Entries.pairs values))

/-- Keys and values are evaluated one after the other, like items. -/
theorem mapM_items
    (evaluate : Evaluator)
    (frame : FrameId)
    (entries : List (Value × Value)) :
    (Entries.items entries).mapM (evaluate frame) =
      Entries.items <$> entries.mapM (evalEntry evaluate frame) := by
  induction entries with
  | nil => rfl
  | cons entry entries ih =>
      rcases entry with ⟨key, value⟩
      show (key :: value :: Entries.items entries).mapM (evaluate frame) = _
      rw [List.mapM_cons, List.mapM_cons, List.mapM_cons, ih, evalEntry]
      simp only [map_eq_pure_bind, bind_assoc, pure_bind, Entries.items]

/-- A map is evaluated like the sequence of its keys and values. -/
theorem evalForm_map
    (evaluate : Evaluator)
    (frame : FrameId)
    (entries : List (Value × Value)) :
    evalForm evaluate frame (.map entries) =
      evalItems evaluate frame (Entries.items entries) := by
  rw [evalForm, evalItems, mapM_items]
  simp only [map_eq_pure_bind, bind_assoc, pure_bind, Entries.pairs_items]

end Eval

/-- Keys and values between braces are read as the map that is built from them. -/
theorem Form.outcome_read_of_braces
    {token : Token}
    {rest left : List Token}
    {pairs : List (Value × Value)}
    (opens : token.text = [Bracket.curly.opening])
    (written :
      (readItems .curly token.position rest).outcome = (.ok (Entries.items pairs), left)) :
    (read (token :: rest)).outcome = (.ok (.map (Entries.ofPairs pairs)), left) := by
  rw [outcome_read_cons, Bracket.ofOpening?_eq_some_iff.2 opens]
  simp only [written, collect, Entries.ofItems?_items_eq_ofPairs]

/--
The map that is written between braces has as its entries the pairs whose key form is
not repeated later, in ascending order of key forms, and is evaluated like the sequence
of these keys and values: of the pairs that result, the last one with each key stays.
If the key forms ascend as they are written, this is the written order.
-/
theorem mapForm_outcome_eq_evalItems
    {token : Token}
    {rest left : List Token}
    {pairs : List (Value × Value)}
    (opens : token.text = [Bracket.curly.opening])
    (written :
      (Form.readItems .curly token.position rest).outcome = (.ok (Entries.items pairs), left)) :
    ∃ entries,
      (Form.read (token :: rest)).outcome = (.ok (.map entries), left) ∧
        Entries.Keeps pairs entries ∧
        (Entries.Ascending pairs → entries = pairs) ∧
        (∀ depth frame store,
          (eval (depth + 1) frame (.map entries)).outcome store =
            (Eval.evalItems (eval depth) frame (Entries.items entries)).outcome store) ∧
        ∀ results, Entries.Keeps results (Entries.ofPairs results) := by
  refine ⟨Entries.ofPairs pairs, Form.outcome_read_of_braces opens written,
    Entries.keeps_ofPairs pairs, Entries.ofPairs_eq_self, ?_, Entries.keeps_ofPairs⟩
  intro depth frame store
  rw [eval_succ, Eval.evalForm_map]

/-! ## Keys that are equal, and keys that become equal -/

/-- A single frame in which nothing is bound. -/
def emptyFrame : Store :=
  Store.empty.addFrame ⟨[], none⟩

/-- The tokens behind the opening brace of `{(do :a) 1 :a 2}`. -/
def tokensBehindBrace : List Token :=
  [⟨['('], ⟨1, 2⟩⟩, ⟨['d', 'o'], ⟨1, 3⟩⟩, ⟨[':', 'a'], ⟨1, 6⟩⟩, ⟨[')'], ⟨1, 8⟩⟩,
    ⟨['1'], ⟨1, 10⟩⟩, ⟨[':', 'a'], ⟨1, 12⟩⟩, ⟨['2'], ⟨1, 15⟩⟩, ⟨['}'], ⟨1, 16⟩⟩]

/-- Two pairs whose key forms are different and evaluate to the same keyword. -/
def equalKeys : List (Value × Value) :=
  [(.list [.symbol "do", .keyword "a"], .number 1), (.keyword "a", .number 2)]

private theorem readItems_tokensBehindBrace :
    (Form.readItems .curly ⟨1, 1⟩ tokensBehindBrace).outcome =
      (.ok (Entries.items equalKeys), []) := by
  have word : Atom.ofText? ['d', 'o'] = some (.symbol "do") := rfl
  have keyword : Atom.ofText? [':', 'a'] = some (.keyword "a") := rfl
  have one : Atom.ofText? ['1'] = some (.number 1) := rfl
  have two : Atom.ofText? ['2'] = some (.number 2) := rfl
  simp [tokensBehindBrace, equalKeys, Form.outcome_readItems_cons, Form.outcome_read_cons,
    Token.isComment, Bracket.ofOpening?, Bracket.ofClosing?, word, keyword, one, two,
    Form.collect, Entries.items]

/-- Written after the other key, the keyword is still evaluated before it. -/
theorem mapForm_outcome_eq_evalItems_of_equal_keys :
    (Form.read (⟨['{'], ⟨1, 1⟩⟩ :: tokensBehindBrace)).outcome =
        (.ok (.map (Entries.ofPairs equalKeys)), []) ∧
      (Eval.evalItems (eval 2) 0
          (Entries.items (Entries.ofPairs equalKeys))).outcome emptyFrame =
        some (.ok (.map [(.keyword "a", .number 1)]), emptyFrame) := by
  have opens : (⟨['{'], ⟨1, 1⟩⟩ : Token).text = [Bracket.curly.opening] := rfl
  rcases mapForm_outcome_eq_evalItems opens readItems_tokensBehindBrace with
    ⟨entries, read, keeps, -, evaluated, -⟩
  rw [keeps.eq_ofPairs] at read evaluated
  refine ⟨read, ?_⟩
  rw [← evaluated 2 0 emptyFrame]
  rfl

/-- Two pairs with the same key, of which the first one would define a name. -/
def repeatedKey : List (Value × Value) :=
  [(.keyword "b", .list [.symbol "def!", .symbol "x", .number 1]), (.keyword "b", .number 2)]

/--
In the written order, the other value would be that of the keyword, and the name would be
defined.
-/
theorem mapForm_not_in_written_order :
    (Token.ofSource "\x7b(do :a) 1 :a 2\x7d" = ⟨['{'], ⟨1, 1⟩⟩ :: tokensBehindBrace ∧
      (Form.readItems .curly ⟨1, 1⟩ tokensBehindBrace).outcome =
        (.ok (Entries.items equalKeys), []) ∧
      (Form.read (⟨['{'], ⟨1, 1⟩⟩ :: tokensBehindBrace)).outcome =
        (.ok (.map (Entries.ofPairs equalKeys)), []) ∧
      (eval 3 0 (.map (Entries.ofPairs equalKeys))).outcome emptyFrame =
        some (.ok (.map [(.keyword "a", .number 1)]), emptyFrame) ∧
      (Eval.evalItems (eval 2) 0 (Entries.items equalKeys)).outcome emptyFrame =
        some (.ok (.map [(.keyword "a", .number 2)]), emptyFrame)) ∧
      Form.collect .curly (Entries.items repeatedKey) =
        .ok (.map (Entries.ofPairs repeatedKey)) ∧
      (eval 3 0 (.map (Entries.ofPairs repeatedKey))).outcome emptyFrame =
        some (.ok (.map [(.keyword "b", .number 2)]), emptyFrame) ∧
      (Eval.evalItems (eval 2) 0 (Entries.items repeatedKey)).outcome emptyFrame =
        some
          (.ok (.map [(.keyword "b", .number 2)]), emptyFrame.define 0 "x" (.number 1)) := by
  constructor
  · constructor
    · decide +kernel
    · refine ⟨readItems_tokensBehindBrace, ?_, rfl, rfl⟩
      exact Form.outcome_read_of_braces rfl readItems_tokensBehindBrace
  · exact ⟨rfl, rfl, rfl⟩

end MiniLisp
