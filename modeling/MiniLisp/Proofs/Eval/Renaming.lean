import MiniLisp.Proofs.Eval.Simulation
import MiniLisp.Session
import Mathlib.Logic.Equiv.Basic

/-!
# Names of variables

This module shows that the names of variables do not matter: a program and the same
program under other names show the same, form by form.

A change of names (`Naming`) is injective and keeps the symbols that have a meaning of
their own: those of special forms and builtin functions, and the mark of the rest
parameter.  It is applied to all symbols of a form, variables and parameters alike.
Keys of maps stand in an order that depends on names, so the keys are required to have
no symbols.

The program and the renamed program are two runs that begin with root frames in which
nothing but the builtin functions is defined (`TwoRuns.corresponds_renamed`).
-/

namespace MiniLisp

/-- Other names for symbols, but for those with a meaning of their own. -/
structure Naming where
  name : String → String
  injective : Function.Injective name
  special : ∀ form : SpecialForm, name form.name = form.name
  restMark : name Parameters.restMark = Parameters.restMark
  builtin : ∀ builtin : Builtin, name builtin.name = builtin.name

namespace Value

mutual

/-- The form with other names for its symbols; maps are built anew. -/
def renameSymbols (name : String → String) : Value → Value
  | symbol other => symbol (name other)
  | list items => list (renameItems name items)
  | vector items => vector (renameItems name items)
  | map entries => map (Entries.ofPairs (renameEntries name entries))
  | value => value

/-- The items with other names for their symbols. -/
def renameItems (name : String → String) : List Value → List Value
  | [] => []
  | item :: items => renameSymbols name item :: renameItems name items

/-- The keys and values with other names for their symbols. -/
def renameEntries (name : String → String) : List (Value × Value) → List (Value × Value)
  | [] => []
  | (key, value) :: entries =>
    (renameSymbols name key, renameSymbols name value) :: renameEntries name entries

end

theorem renameItems_eq_map
    (name : String → String)
    (items : List Value) :
    renameItems name items = items.map (renameSymbols name) := by
  induction items with
  | nil => rfl
  | cons item items ih => rw [renameItems, ih, List.map_cons]

theorem renameEntries_eq_map
    (name : String → String)
    (entries : List (Value × Value)) :
    renameEntries name entries =
      entries.map fun entry => (entry.1.renameSymbols name, entry.2.renameSymbols name) := by
  induction entries with
  | nil => rfl
  | cons entry entries ih => rw [renameEntries, ih, List.map_cons]

/-- The value is a symbol. -/
def isSymbol : Value → Bool
  | symbol _ => true
  | _ => false

/-- The value and its parts are no symbols. -/
def isSymbolFree (value : Value) : Bool :=
  value.everywhere (!·.isSymbol)

/-- No key has a symbol, if the value is a map. -/
def hasSymbolFreeKeys : Value → Bool
  | map entries => entries.all (·.1.isSymbolFree)
  | _ => true

/-- A form as it can be written, in which no key of a map has a symbol. -/
structure IsRenamable (form : Value) : Prop where
  ordered : form.isOrdered = true
  noFunction : form.everywhere (!·.isFunction) = true
  symbolFreeKeys : form.everywhere hasSymbolFreeKeys = true

theorem IsRenamable.part
    {form part : Value}
    (renamable : form.IsRenamable)
    (member : part ∈ form.parts) :
    part.IsRenamable where
  ordered := (everywhere_iff.1 renamable.ordered).2 part member
  noFunction := (everywhere_iff.1 renamable.noFunction).2 part member
  symbolFreeKeys := (everywhere_iff.1 renamable.symbolFreeKeys).2 part member

theorem renameSymbols_of_isSymbolFree
    (name : String → String)
    {value : Value}
    (ordered : value.isOrdered = true)
    (symbolFree : value.isSymbolFree = true) :
    value.renameSymbols name = value := by
  induction value using induction_on_parts with
  | step value ih =>
      have inParts (part : Value) (member : part ∈ value.parts) :
          part.renameSymbols name = part :=
        ih part member ((everywhere_iff.1 ordered).2 part member)
          ((everywhere_iff.1 symbolFree).2 part member)
      cases value with
      | symbol other =>
          have here := (everywhere_iff.1 symbolFree).1
          cases here
      | list items =>
          have same := (List.map_congr_left inParts).trans (List.map_id' items)
          exact congrArg list ((renameItems_eq_map name items).trans same)
      | vector items =>
          have same := (List.map_congr_left inParts).trans (List.map_id' items)
          exact congrArg vector ((renameItems_eq_map name items).trans same)
      | map entries =>
          have inEntries (entry : Value × Value) (member : entry ∈ entries) :
              (entry.1.renameSymbols name, entry.2.renameSymbols name) = entry := by
            rw [inParts entry.1 (Entries.key_mem_items member),
              inParts entry.2 (Entries.value_mem_items member)]
          have ascending := of_decide_eq_true (everywhere_iff.1 ordered).1
          rw [renameSymbols, renameEntries_eq_map, List.map_congr_left inEntries, List.map_id',
            Entries.ofPairs_eq_self ascending]
      | _ => rfl

/-- Where no key has a symbol, the keys of the renamed map stand in the same order. -/
theorem ofPairs_renameEntries
    (name : String → String)
    {entries : List (Value × Value)}
    (renamable : (map entries).IsRenamable) :
    Entries.ofPairs (renameEntries name entries) = renameEntries name entries := by
  have ascending : Entries.Ascending entries :=
    of_decide_eq_true (everywhere_iff.1 renamable.ordered).1
  have sameKey (entry : Value × Value) (member : entry ∈ entries) :
      entry.1.renameSymbols name = entry.1 := by
    have isPart : entry.1 ∈ (map entries).parts := Entries.key_mem_items member
    apply renameSymbols_of_isSymbolFree name (renamable.part isPart).ordered
    exact List.all_eq_true.1 (everywhere_iff.1 renamable.symbolFreeKeys).1 entry member
  apply Entries.ofPairs_eq_self
  rw [renameEntries_eq_map, Entries.Ascending, List.pairwise_map]
  apply ascending.imp_of_mem
  intro first second firstMember secondMember below
  dsimp only
  rw [sameKey first firstMember, sameKey second secondMember]
  exact below

/-- A form is like the renamed form. -/
theorem alike_renameSymbols
    (translation : Translation)
    (pairing : Pairing)
    {form : Value}
    (renamable : form.IsRenamable) :
    form.Alike translation pairing (fun _ => True) (form.renameSymbols translation.name) := by
  induction form using induction_on_parts with
  | step form ih =>
      have inParts (part : Value) (member : part ∈ form.parts) :
          part.Alike translation pairing (fun _ => True) (part.renameSymbols translation.name) :=
        ih part member (renamable.part member)
      cases form with
      | symbol name => exact alike_symbol_iff.2 ⟨trivial, rfl⟩
      | list items =>
          refine alike_list_iff.2 ⟨_, rfl, ?_⟩
          rw [renameItems_eq_map, List.forall₂_map_right_iff]
          exact List.forall₂_same.2 inParts
      | vector items =>
          refine alike_vector_iff.2 ⟨_, rfl, ?_⟩
          rw [renameItems_eq_map, List.forall₂_map_right_iff]
          exact List.forall₂_same.2 inParts
      | map entries =>
          refine alike_map_iff.2 ⟨_, rfl, ?_⟩
          rw [ofPairs_renameEntries translation.name renamable, renameEntries_eq_map,
            List.forall₂_map_right_iff]
          refine List.forall₂_same.2 fun entry member => ⟨?_, ?_⟩
          · exact inParts entry.1 (Entries.key_mem_items member)
          · exact inParts entry.2 (Entries.value_mem_items member)
      | closure => cases (everywhere_iff.1 renamable.noFunction).1
      | native => cases (everywhere_iff.1 renamable.noFunction).1
      | _ => rfl

end Value

/-! ## The frame of a fresh session -/

/-- Only builtin functions are bound, each to its own name. -/
def Bindings.BindsBuiltins (bindings : Bindings) : Prop :=
  ∀ name value, bindings.get? name = some value →
    ∃ identity builtin, name = Builtin.name builtin ∧ value = .native identity builtin

theorem Store.frame?_defineBuiltins
    {store : Store}
    {frame : FrameId}
    {content : Frame}
    (found : store.frame? frame = some content)
    (before : content.bindings.BindsBuiltins) :
    ∃ bound,
      (store.defineBuiltins frame).frame? frame = some bound ∧
        bound.parent = content.parent ∧ bound.bindings.BindsBuiltins := by
  unfold defineBuiltins
  induction Builtin.all generalizing store content with
  | nil => exact ⟨content, found, rfl, before⟩
  | cons builtin builtins ih =>
      have foundNext :
          ((store.define frame builtin.name (.native store.functions builtin)).addFunction).frame?
              frame =
            some _ :=
        frame?_define_self found builtin.name (.native store.functions builtin)
      have bindsNext :
          Bindings.BindsBuiltins
            (content.bindings.define builtin.name (.native store.functions builtin)) := by
        intro name value bound
        rw [Bindings.get?_define] at bound
        split at bound
        · next isName =>
            cases bound
            exact ⟨_, builtin, isName, rfl⟩
        · exact before name value bound
      obtain ⟨bound, foundBound, sameParent, binds⟩ := ih foundNext bindsNext
      exact ⟨bound, foundBound, sameParent, binds⟩

theorem Session.frame?_enter (store : Store) :
    ∃ content,
      (enter store).frame? store.nextFrame = some content ∧
        content.parent = none ∧ content.bindings.BindsBuiltins := by
  have found : (store.addFrame ⟨[], none⟩).frame? store.nextFrame = some ⟨[], none⟩ := by
    rw [Store.frame?_addFrame, if_pos rfl]
  exact Store.frame?_defineBuiltins found nofun

/-! ## Both runs -/

theorem SpecialForm.ofName?_rename
    (naming : Naming)
    (symbol : String) :
    ofName? (naming.name symbol) = ofName? symbol := by
  unfold ofName?
  congr 1
  funext form
  rw [Bool.eq_iff_iff, beq_iff_eq, beq_iff_eq]
  nth_rewrite 1 [← naming.special form]
  exact naming.injective.eq_iff

/-- The symbols have other names; functions are numbered alike. -/
def Naming.toTranslation (naming : Naming) : Translation where
  name := naming.name
  function := id
  name_injective := naming.injective
  ofName?_name := SpecialForm.ofName?_rename naming
  name_restMark := naming.restMark
  function_strictMono := strictMono_id

/-- A program and the renamed program, each in a session that is entered in the store. -/
def TwoRuns.renamed (naming : Naming) (store : Store) : TwoRuns where
  toTranslation := naming.toTranslation
  left := Session.enter store
  right := Session.enter store
  allowed := fun _ _ _ => True
  function_made := fun _ => rfl
  allowed_made := fun _ _ _ _ _ => trivial

/-- All names, for frames in which both runs may bind names. -/
def Scope.shared : Scope := ⟨fun _ => True, True⟩

/-- The root frame of the session, paired with itself. -/
def Pairing.root (session : Session) : Pairing :=
  fun left right scope => left = session.root ∧ right = session.root ∧ scope = Scope.shared

/-- A renamed name is bound to what the name is bound to, as only fixed names are bound. -/
theorem Bindings.BindsBuiltins.optionRel_get?
    {bindings : Bindings}
    (bindsBuiltins : bindings.BindsBuiltins)
    (naming : Naming)
    (pairing : Pairing)
    (name : String) :
    Option.Rel (Value.Matches naming.toTranslation pairing)
      (bindings.get? name) (bindings.get? (naming.name name)) := by
  by_cases isFixed : naming.name name = name
  · rw [isFixed]
    cases bound : bindings.get? name with
    | none => exact .none
    | some value =>
        obtain ⟨identity, builtin, -, rfl⟩ := bindsBuiltins name value bound
        exact .some (Value.alike_native_iff.2 rfl)
  · have unbound {other : String} (moved : naming.name other ≠ other) :
        bindings.get? other = none := by
      rw [Option.eq_none_iff_forall_ne_some]
      intro value bound
      obtain ⟨identity, builtin, rfl, -⟩ := bindsBuiltins other value bound
      exact moved (naming.builtin builtin)
    rw [unbound isFixed, unbound fun same => isFixed (naming.injective same)]
    exact .none

theorem TwoRuns.corresponds_renamed
    (naming : Naming)
    (store : Store) :
    (renamed naming store).Corresponds (.root (.next store))
      (Session.enter store) (Session.enter store) where
  inStep := ⟨0, 0, "", .refl _, .refl _⟩
  agree := by
    rintro left right scope ⟨rfl, rfl, rfl⟩
    obtain ⟨content, found, isRoot, bindsBuiltins⟩ := Session.frame?_enter store
    apply FramesAgree.alike found found
    · exact fun name _ => bindsBuiltins.optionRel_get? naming _ name
    · rw [isRoot]
      exact .none
  single := by
    rintro left right scope left' right' scope' ⟨rfl, rfl, rfl⟩ _ ⟨rfl, rfl, rfl⟩
    exact Iff.rfl
  allowed := fun _ _ _ _ => trivial
  together := fun _ isMade => absurd isMade (Nat.not_lt.2 (Nat.le_add_right _ _))

/-! ## Transcripts -/

/-- What is seen form by form, a fault or the text of the value, and the whole text written. -/
def Session.transcript
    (session : Session)
    (depth : Nat) :
    List Value → Store → Option (List (Except Fault String) × String)
  | [], store => some ([], store.output)
  | form :: forms, store =>
    match (eval depth session.root form).outcome store with
    | none => none
    | some (result, after) =>
      (session.transcript depth forms after).map fun seen =>
        (result.map Value.readable :: seen.1, seen.2)

/-- What is seen under other names. -/
def Naming.transcript
    (naming : Naming)
    (seen : List (Except Fault String) × String) :
    List (Except Fault String) × String :=
  (seen.1.map (Except.mapError (Fault.rename naming.name)), seen.2)

section

variable
  {naming : Naming}
  {start : Store}
  {session : Session}
  {depth : Nat}
  {pairing : Pairing}

theorem TwoRuns.agree_renamed
    (depth : Nat)
    (paired : pairing session.root session.root Scope.shared)
    {form : Value}
    (renamable : form.IsRenamable) :
    (renamed naming start).Agree pairing (Value.Matches naming.toTranslation)
      (eval depth session.root form) (eval depth session.root (form.renameSymbols naming.name)) :=
  (renamed naming start).isFaithful_eval depth _ _ _ Scope.shared _ _ paired (Or.inl trivial)
    (Value.alike_renameSymbols naming.toTranslation pairing renamable)

/-- Transcripts that start in corresponding stores correspond. -/
theorem TwoRuns.transcript_eq
    {forms : List Value}
    (renamable : ∀ form ∈ forms, form.IsRenamable)
    (paired : pairing session.root session.root Scope.shared)
    {first second : Store}
    (corresponds : (renamed naming start).Corresponds pairing first second) :
    session.transcript depth (forms.map (Value.renameSymbols naming.name)) second =
      (session.transcript depth forms first).map naming.transcript := by
  induction forms generalizing pairing first second with
  | nil =>
      have sameOutput := corresponds.output_eq rfl
      simp [Session.transcript, Naming.transcript, sameOutput]
  | cons form forms ih =>
      have agree :=
        agree_renamed depth paired (renamable form List.mem_cons_self) _ _ corresponds
      rw [List.map_cons, Session.transcript, Session.transcript]
      generalize (eval depth session.root form).outcome first = outcome at agree ⊢
      generalize (eval depth session.root _).outcome second = outcome' at agree ⊢
      cases agree with
      | tooDeep => rfl
      | ended widens after resultsAgree =>
          have rest :=
            ih (fun other member => renamable other (List.mem_cons_of_mem form member))
              (widens _ _ _ paired) after
          dsimp only
          rw [rest, resultsAgree.map_readable, Option.map_map, Option.map_map]
          rfl

end

/--
Evaluated one after the other in a fresh session, forms and the renamed forms show the
same.  To every depth both are too deep, or they write the same text, and form by form
end with values of the same text or with the same fault, in which the name of an
unbound symbol is the renamed name.
-/
theorem transcript_rename
    (naming : Naming)
    (depth : Nat)
    (store : Store)
    {forms : List Value}
    (renamable : ∀ form ∈ forms, form.IsRenamable) :
    (Session.next store).transcript depth (forms.map (Value.renameSymbols naming.name))
        (Session.enter store) =
      ((Session.next store).transcript depth forms (Session.enter store)).map
        naming.transcript :=
  TwoRuns.transcript_eq renamable ⟨rfl, rfl, rfl⟩ (TwoRuns.corresponds_renamed naming store)

/-- The exchange of two names. -/
def swappedNames : Naming where
  name := Equiv.swap "f" "g"
  injective := (Equiv.swap "f" "g").injective
  special := fun form => by cases form <;> decide
  restMark := by decide
  builtin := fun builtin => by cases builtin <;> decide

/-- A definition of a function with a rest parameter, a call of it, and an unbound symbol. -/
def programWithFunction : List Value :=
  [.list
      [.symbol "def!", .symbol "f",
        .list
          [.symbol "fn*", .vector [.symbol "x", .symbol "&", .symbol "g"],
            .map [(.keyword "k", .list [.symbol "list", .symbol "g", .symbol "x"])]]],
    .list [.symbol "prn", .list [.symbol "f", .nil, .keyword "a"]],
    .symbol "g"]

theorem transcript_rename_of_swap :
    (Session.next .empty).transcript 6 programWithFunction (Session.enter .empty) =
        some ([.ok "#<function>", .ok "nil", .error (.unbound "g")], "\x7b:k ((:a) nil)\x7d\n") ∧
      (Session.next .empty).transcript 6
          (programWithFunction.map (Value.renameSymbols swappedNames.name))
          (Session.enter .empty) =
        some ([.ok "#<function>", .ok "nil", .error (.unbound "f")],
          "\x7b:k ((:a) nil)\x7d\n") := by
  have original :
      (Session.next .empty).transcript 6 programWithFunction (Session.enter .empty) =
        some ([.ok "#<function>", .ok "nil", .error (.unbound "g")],
          "\x7b:k ((:a) nil)\x7d\n") := by decide +kernel
  have renamable : ∀ form ∈ programWithFunction, form.IsRenamable := by
    intro form member
    refine ⟨?_, ?_, ?_⟩
    all_goals
      revert form
      decide
  refine ⟨original, ?_⟩
  rw [transcript_rename swappedNames 6 .empty renamable, original]
  decide

end MiniLisp
