import MiniLisp.Eval.Names

/-!
# Lists of parameters

This module shows which lists of names stand for parameters, and to which arguments the
parameters are bound.

The mark of the rest parameter must not stand among the names, or stand once and directly
before the last one (`Parameters.ofValue_eq_ok_iff`).  If the parameters admit the number
of arguments, every name has an argument, and a name that stands more than once is bound
to the argument at its last place (`Parameters.lookup_reverse_zip_eq_some_iff`), unless it
is the name of the rest parameter.

The names and the arguments can then be read by position without any position being out
of range (`Parameters.ofPositions?_eq_some`, `Parameters.bindAt?_eq_some`).
-/

namespace MiniLisp

namespace Value

theorem bindingName_eq_ok_iff
    {form : String}
    {target : Value}
    {name : String} :
    target.bindingName form = .ok name ↔ target = symbol name := by
  constructor
  · intro bound
    cases target with
    | symbol other =>
        cases bound
        rfl
    | _ => cases bound
  · rintro rfl
    rfl

/-- Names are taken from symbols only. -/
theorem bindingNames_eq_ok_iff
    {form : String}
    {values : List Value}
    {names : List String} :
    bindingNames form values = .ok names ↔ values = names.map symbol := by
  constructor
  · intro bound
    induction values generalizing names with
    | nil =>
        cases bound
        rfl
    | cons value values ih =>
        rw [bindingNames] at bound
        split at bound
        · cases bound
        · next name isName =>
            rw [bindingName_eq_ok_iff.1 isName]
            cases others : bindingNames form values with
            | error fault =>
                rw [others] at bound
                cases bound
            | ok found =>
                rw [others] at bound
                cases bound
                rw [ih others, List.map_cons]
  · rintro rfl
    induction names with
    | nil => rfl
    | cons name names ih =>
        rw [List.map_cons, bindingNames, ih]
        rfl

end Value

namespace Parameters

/-! ## The mark of the rest parameter -/

/-- The mark does not stand among the names, or once and directly before the last one. -/
def IsWellMarked (names : List String) : Prop :=
  restMark ∉ names ∨
    names.count restMark = 1 ∧ ∃ before last, names = before ++ [restMark, last]

/-- The parameters that well marked names stand for. -/
inductive Denotes : List String → Parameters → Prop where
  | fixed
      {names : List String}
      (unmarked : restMark ∉ names) :
      Denotes names ⟨names, none⟩
  | variadic
      {before : List String}
      {last : String}
      (once : (before ++ [restMark, last]).count restMark = 1) :
      Denotes (before ++ [restMark, last]) ⟨before, some last⟩

theorem exists_denotes_iff {names : List String} :
    (∃ parameters, Denotes names parameters) ↔ IsWellMarked names := by
  constructor
  · rintro ⟨parameters, denotes⟩
    cases denotes with
    | fixed unmarked => exact Or.inl unmarked
    | variadic once => exact Or.inr ⟨once, _, _, rfl⟩
  · rintro (unmarked | ⟨once, before, last, rfl⟩)
    · exact ⟨_, .fixed unmarked⟩
    · exact ⟨_, .variadic once⟩

theorem ofNames?_eq_some_iff
    {names : List String}
    {parameters : Parameters} :
    ofNames? names = some parameters ↔ Denotes names parameters := by
  constructor
  · intro denoted
    unfold ofNames? at denoted
    split at denoted
    · next unmarked =>
        cases denoted
        exact .fixed (List.count_eq_zero.1 unmarked)
    · split at denoted
      · next last mark before reversed =>
          split at denoted
          · next single =>
              cases denoted
              obtain ⟨rfl, once⟩ := single
              have whole : names = before.reverse ++ [restMark, last] := by
                rw [← List.reverse_reverse names, reversed]
                simp
              rw [whole] at once ⊢
              exact .variadic once
          · cases denoted
      · cases denoted
  · intro denotes
    cases denotes with
    | fixed unmarked => rw [ofNames?, if_pos (List.count_eq_zero.2 unmarked)]
    | variadic once =>
        rw [ofNames?, once, if_neg Nat.one_ne_zero]
        simp

theorem ofValue_eq_ok_iff
    {form : String}
    {value : Value}
    {parameters : Parameters} :
    ofValue form value = .ok parameters ↔
      ∃ names, value.items? = some (names.map .symbol) ∧ Denotes names parameters := by
  unfold ofValue
  constructor
  · intro made
    split at made
    · cases made
    · next items isSequence =>
        split at made
        · cases made
        · next names found =>
            split at made
            · next denoted =>
                cases made
                rw [Value.bindingNames_eq_ok_iff.1 found] at isSequence
                exact ⟨names, isSequence, ofNames?_eq_some_iff.1 denoted⟩
            · cases made
  · rintro ⟨names, isSequence, denotes⟩
    rw [isSequence]
    simp only [Value.bindingNames_eq_ok_iff.2 rfl, ofNames?_eq_some_iff.2 denotes]

theorem exists_ofValue_eq_ok_iff
    {form : String}
    {value : Value} :
    (∃ parameters, ofValue form value = .ok parameters) ↔
      ∃ names, value.items? = some (names.map .symbol) ∧ IsWellMarked names := by
  simp only [ofValue_eq_ok_iff, ← exists_denotes_iff]
  constructor
  · rintro ⟨parameters, names, isSequence, denotes⟩
    exact ⟨names, isSequence, parameters, denotes⟩
  · rintro ⟨names, isSequence, parameters, denotes⟩
    exact ⟨parameters, names, isSequence, denotes⟩

/-- The last name but one is the mark; nothing if its position is out of range. -/
def isMarkedAt? (names : List String) : Option Bool :=
  if 2 ≤ names.length then
    names[names.length - 2]?.map (· == restMark)
  else
    some false

/-- The parameters that names denote, with every access to the names by position. -/
def ofPositions? (names : List String) : Option (Option Parameters) :=
  (isMarkedAt? names).map fun marked =>
    if names.count restMark = 0 then
      some ⟨names, none⟩
    else if marked = false ∨ 1 < names.count restMark then
      none
    else
      some ⟨names.dropLast.dropLast, names.getLast?⟩

/-- No access to the names is out of range, and the parameters are those of the names. -/
theorem ofPositions?_eq_some (names : List String) :
    ofPositions? names = some (ofNames? names) := by
  rw [ofPositions?, ofNames?, isMarkedAt?]
  cases reversed : names.reverse with
  | nil =>
      obtain rfl := List.reverse_eq_nil_iff.1 reversed
      rfl
  | cons last before =>
      cases before with
      | nil =>
          obtain rfl : names = [last] := by
            rw [← List.reverse_reverse names, reversed]
            rfl
          simp
      | cons mark before =>
          obtain rfl : names = before.reverse ++ [mark, last] := by
            rw [← List.reverse_reverse names, reversed]
            simp
          have several : 2 ≤ (before.reverse ++ [mark, last]).length := by simp
          have markPlace :
              (before.reverse ++ [mark, last])[(before.reverse ++ [mark, last]).length - 2]? =
                some mark := by simp
          simp only [if_pos several, markPlace]
          by_cases isMark : mark = restMark
          · subst isMark
            have marked : (before.reverse ++ [restMark, last]).count restMark ≠ 0 := by simp
            simp only [if_neg marked]
            by_cases once : (before.reverse ++ [restMark, last]).count restMark = 1
            · simp [once]
            · have again : 1 < (before.reverse ++ [restMark, last]).count restMark := by omega
              simp [-List.count_append, once, again]
          · simp [isMark]

/-! ## Arguments -/

/-- The parameters admit a number of arguments. -/
def Admits (parameters : Parameters) (count : Nat) : Prop :=
  match parameters.rest with
  | none => count = parameters.positional.length
  | some _ => parameters.positional.length ≤ count

theorem accepts_iff_admits
    {parameters : Parameters}
    {count : Nat} :
    parameters.arity.accepts count = true ↔ parameters.Admits count := by
  unfold arity Admits
  cases parameters.rest <;> simp [Arity.accepts]

theorem Admits.positional_le
    {parameters : Parameters}
    {count : Nat}
    (admits : parameters.Admits count) :
    parameters.positional.length ≤ count := by
  unfold Admits at admits
  split at admits
  · exact Nat.le_of_eq admits.symm
  · exact admits

/-- The bindings of the parameters, with an access to the arguments by position. -/
def bindAt? (parameters : Parameters) (arguments : List Value) : Option (List (String × Value)) :=
  match parameters.rest with
  | none => some (parameters.positional.zip arguments)
  | some name =>
    if parameters.positional.length ≤ arguments.length then
      some (parameters.positional.zip arguments ++
        [(name, .list (arguments.drop parameters.positional.length))])
    else
      none

theorem bindAt?_eq_some
    {parameters : Parameters}
    {arguments : List Value}
    (admits : parameters.Admits arguments.length) :
    parameters.bindAt? arguments = some (parameters.bind arguments) := by
  unfold bindAt? bind
  cases parameters.rest with
  | none => simp
  | some name => simp [admits.positional_le]

/-- A name is bound to the argument at its last place among the names. -/
theorem lookup_reverse_zip_eq_some_iff
    {names : List String}
    {arguments : List Value}
    (enough : names.length ≤ arguments.length)
    {name : String}
    {value : Value} :
    (names.zip arguments).reverse.lookup name = some value ↔
      ∃ before after,
        names = before ++ name :: after ∧ name ∉ after ∧
          arguments[before.length]? = some value := by
  constructor
  · intro found
    obtain ⟨later, earlier, whole, others⟩ := List.lookup_eq_some_iff.1 found
    rw [List.reverse_eq_iff, List.reverse_append, List.reverse_cons, List.append_assoc] at whole
    refine ⟨earlier.reverse.map Prod.fst, later.reverse.map Prod.fst, ?_, ?_, ?_⟩
    · rw [← List.map_fst_zip enough, whole]
      simp
    · rintro isLater
      obtain ⟨pair, member, isName⟩ := List.mem_map.1 isLater
      have different := others pair (List.mem_reverse.1 member)
      simp [isName] at different
    · have atPlace : (names.zip arguments)[earlier.length]? = some (name, value) := by
        rw [whole]
        simp
      rw [List.length_map, List.length_reverse]
      exact (List.getElem?_zip_eq_some.1 atPlace).2
  · rintro ⟨before, after, rfl, last, atPlace⟩
    obtain ⟨inRange, isValue⟩ := List.getElem?_eq_some_iff.1 atPlace
    have whole :
        arguments =
          arguments.take before.length ++ value :: arguments.drop (before.length + 1) := by
      rw [← isValue, List.getElem_cons_drop, List.take_append_drop]
    have sameLength : before.length = (arguments.take before.length).length := by
      rw [List.length_take]
      omega
    rw [whole, List.zip_append sameLength, List.zip_cons_cons, List.reverse_append,
      List.reverse_cons, List.append_assoc]
    apply List.lookup_eq_some_iff.2
    refine ⟨_, _, rfl, ?_⟩
    intro pair member
    rw [bne_iff_ne]
    rintro rfl
    exact last (List.of_mem_zip (List.mem_reverse.1 member)).1

/-- The rest parameter is bound last. -/
theorem lookup_reverse_bind_of_rest
    {parameters : Parameters}
    {name : String}
    (isRest : parameters.rest = some name)
    (arguments : List Value) :
    (parameters.bind arguments).reverse.lookup name =
      some (.list (arguments.drop parameters.positional.length)) := by
  rw [bind, isRest, List.reverse_append]
  simp

theorem lookup_reverse_bind_of_positional
    {parameters : Parameters}
    {name : String}
    (noRest : parameters.rest ≠ some name)
    (arguments : List Value) :
    (parameters.bind arguments).reverse.lookup name =
      (parameters.positional.zip arguments).reverse.lookup name := by
  rw [bind, List.reverse_append]
  cases isRest : parameters.rest with
  | none => rfl
  | some rest =>
      rw [isRest, Ne, Option.some.injEq] at noRest
      simp [List.lookup_cons, beq_eq_false_iff_ne.2 (Ne.symm noRest)]

end Parameters

end MiniLisp
