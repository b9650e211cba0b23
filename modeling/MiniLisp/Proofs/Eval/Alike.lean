import MiniLisp.Proofs.Eval.Translation
import MiniLisp.Proofs.Value.Components
import MiniLisp.Proofs.Value.AscendingEntries
import MiniLisp.Proofs.Value.Texts

/-!
# Values of two runs that are alike

This module supplies the relation between the values of two runs of which one
renames symbols, numbers its functions otherwise, or makes its frames elsewhere.

A pairing says which frames of the runs stand for each other, and for which names
(`Pairing`).  Values are alike if one is the other but for this and for a translation
(`Value.Alike`); the frames in which closures were made have to be paired for the names
in the bodies of the closures.

Values that are alike and whose own symbols have the same names in both runs are
told apart by nothing that a program can do with them: they are compared alike,
described alike and written alike.
-/

namespace MiniLisp

/-- In what respect two frames stand for each other. -/
structure Scope where
  /-- The names for which both frames give values that are alike. -/
  names : String → Prop
  /-- Names may be bound in both frames, as neither stands for a third. -/
  writable : Prop

/-- The frames of two runs that stand for each other, and in what respect. -/
abbrev Pairing := FrameId → FrameId → Scope → Prop

/-- The frames in which two closures were made are paired, or neither has any. -/
inductive Pairing.Homes (pairing : Pairing) : Option FrameId → Option FrameId → Scope → Prop where
  | paired
      {left right : FrameId}
      {scope : Scope}
      (paired : pairing left right scope) :
      Homes pairing (some left) (some right) scope
  | homeless (scope : Scope) : Homes pairing none none scope

theorem Pairing.Homes.mono
    {pairing wider : Pairing}
    {home home' : Option FrameId}
    {scope : Scope}
    (homes : pairing.Homes home home' scope)
    (widens : pairing ≤ wider) :
    wider.Homes home home' scope := by
  cases homes with
  | paired paired => exact .paired (widens _ _ _ paired)
  | homeless => exact .homeless scope

namespace Value

variable (translation : Translation) (pairing : Pairing)

mutual

/-- The values are the same but for names, identities and homes; the first has names of a range. -/
def Alike (names : String → Prop) : Value → Value → Prop
  | symbol name, other => names name ∧ other = symbol (translation.name name)
  | list items, other => ∃ others, other = list others ∧ AlikeItems names items others
  | vector items, other => ∃ others, other = vector others ∧ AlikeItems names items others
  | map entries, other => ∃ others, other = map others ∧ AlikeEntries names entries others
  | closure identity parameters body home, other =>
    ∃ body' home' scope,
      other =
          closure (translation.function identity) (parameters.rename translation.name) body' home' ∧
        pairing.Homes home home' scope ∧ Alike scope.names body body'
  | native identity routine, other => other = native (translation.function identity) routine
  | value, other => other = value

/-- The items are alike one by one. -/
def AlikeItems (names : String → Prop) : List Value → List Value → Prop
  | [], others => others = []
  | item :: items, others =>
    ∃ other rest, others = other :: rest ∧ Alike names item other ∧ AlikeItems names items rest

/-- The keys and values of entries are alike one by one. -/
def AlikeEntries (names : String → Prop) :
    List (Value × Value) → List (Value × Value) → Prop
  | [], others => others = []
  | (key, value) :: entries, others =>
    ∃ other other' rest,
      others = (other, other') :: rest ∧ Alike names key other ∧ Alike names value other' ∧
        AlikeEntries names entries rest

end

variable
  {translation : Translation}
  {pairing : Pairing}
  {names : String → Prop}

theorem alikeItems_iff
    {items others : List Value} :
    AlikeItems translation pairing names items others ↔
      List.Forall₂ (Alike translation pairing names) items others := by
  induction items generalizing others with
  | nil =>
      rw [AlikeItems, List.forall₂_nil_left_iff]
  | cons item items ih =>
      simp only [AlikeItems, List.forall₂_cons_left_iff, ih]
      constructor
      · rintro ⟨other, rest, rfl, alike, inRest⟩
        exact ⟨other, rest, alike, inRest, rfl⟩
      · rintro ⟨other, rest, alike, inRest, rfl⟩
        exact ⟨other, rest, rfl, alike, inRest⟩

theorem alikeEntries_iff
    {entries others : List (Value × Value)} :
    AlikeEntries translation pairing names entries others ↔
      List.Forall₂ (EntriesRelated (Alike translation pairing names)) entries others := by
  induction entries generalizing others with
  | nil =>
      rw [AlikeEntries, List.forall₂_nil_left_iff]
  | cons entry entries ih =>
      obtain ⟨key, value⟩ := entry
      simp only [AlikeEntries, List.forall₂_cons_left_iff, ih]
      constructor
      · rintro ⟨other, other', rest, rfl, keys, values, inRest⟩
        exact ⟨(other, other'), rest, ⟨keys, values⟩, inRest, rfl⟩
      · rintro ⟨⟨other, other'⟩, rest, ⟨keys, values⟩, inRest, rfl⟩
        exact ⟨other, other', rest, rfl, keys, values, inRest⟩

theorem alike_symbol_iff
    {name : String}
    {other : Value} :
    (symbol name).Alike translation pairing names other ↔
      names name ∧ other = symbol (translation.name name) := by
  rw [Alike]

theorem alike_list_iff
    {items : List Value}
    {other : Value} :
    (list items).Alike translation pairing names other ↔
      ∃ others,
        other = list others ∧ List.Forall₂ (Alike translation pairing names) items others := by
  simp only [Alike, alikeItems_iff]

theorem alike_vector_iff
    {items : List Value}
    {other : Value} :
    (vector items).Alike translation pairing names other ↔
      ∃ others,
        other = vector others ∧ List.Forall₂ (Alike translation pairing names) items others := by
  simp only [Alike, alikeItems_iff]

theorem alike_map_iff
    {entries : List (Value × Value)}
    {other : Value} :
    (map entries).Alike translation pairing names other ↔
      ∃ others,
        other = map others ∧
          List.Forall₂ (EntriesRelated (Alike translation pairing names)) entries others := by
  simp only [Alike, alikeEntries_iff]

theorem alike_closure_iff
    {identity : Nat}
    {parameters : Parameters}
    {body : Value}
    {home : Option FrameId}
    {other : Value} :
    (closure identity parameters body home).Alike translation pairing names other ↔
      ∃ body' home' scope,
        other =
            closure (translation.function identity) (parameters.rename translation.name)
              body' home' ∧
          pairing.Homes home home' scope ∧ body.Alike translation pairing scope.names body' := by
  rw [Alike]

theorem alike_native_iff
    {identity : Nat}
    {routine : Routine}
    {other : Value} :
    (native identity routine).Alike translation pairing names other ↔
      other = native (translation.function identity) routine := by
  rw [Alike]

theorem forall₂_items_of_entries
    {entries others : List (Value × Value)}
    (alike : List.Forall₂ (EntriesRelated (Alike translation pairing names)) entries others) :
    List.Forall₂ (Alike translation pairing names)
      (Entries.items entries) (Entries.items others) := by
  induction alike with
  | nil => exact .nil
  | cons pair rest ih => exact .cons pair.1 (.cons pair.2 ih)

/-- A relation may be weakened with the members of the first list at hand. -/
theorem forall₂_imp_of_mem
    {First Second : Type}
    {relation weaker : First → Second → Prop}
    {firsts : List First}
    {seconds : List Second}
    (related : List.Forall₂ relation firsts seconds)
    (implies : ∀ first ∈ firsts, ∀ second, relation first second → weaker first second) :
    List.Forall₂ weaker firsts seconds := by
  have both := (List.forall₂_and_left firsts seconds).2 ⟨implies, related⟩
  exact both.imp fun first second holds => holds.1 second holds.2

theorem map_eq_map_of_forall₂
    {First Second Result : Type}
    {read : First → Result}
    {readOther : Second → Result}
    {firsts : List First}
    {seconds : List Second}
    (same :
      List.Forall₂ (fun first second => read first = readOther second) firsts seconds) :
    firsts.map read = seconds.map readOther := by
  rw [← List.forall₂_eq_eq_eq, List.forall₂_map_left_iff, List.forall₂_map_right_iff]
  exact same

/-- The relation grows with the pairing. -/
theorem Alike.mono
    {wider : Pairing}
    {value other : Value}
    (alike : value.Alike translation pairing names other)
    (widens : pairing ≤ wider) :
    value.Alike translation wider names other := by
  induction value using induction_on_components generalizing names other with
  | step value ih =>
      cases value with
      | symbol name => exact alike_symbol_iff.2 (alike_symbol_iff.1 alike)
      | list items =>
          obtain ⟨others, rfl, inItems⟩ := alike_list_iff.1 alike
          refine alike_list_iff.2 ⟨others, rfl, ?_⟩
          exact forall₂_imp_of_mem inItems fun item member _ same => ih item member same
      | vector items =>
          obtain ⟨others, rfl, inItems⟩ := alike_vector_iff.1 alike
          refine alike_vector_iff.2 ⟨others, rfl, ?_⟩
          exact forall₂_imp_of_mem inItems fun item member _ same => ih item member same
      | map entries =>
          obtain ⟨others, rfl, inEntries⟩ := alike_map_iff.1 alike
          refine alike_map_iff.2 ⟨others, rfl, ?_⟩
          apply forall₂_imp_of_mem inEntries
          intro entry member other same
          constructor
          · exact ih entry.1 (Entries.key_mem_items member) same.1
          · exact ih entry.2 (Entries.value_mem_items member) same.2
      | closure identity parameters body home =>
          obtain ⟨body', home', scope, rfl, homes, inBody⟩ := alike_closure_iff.1 alike
          refine alike_closure_iff.2 ⟨body', home', scope, rfl, homes.mono widens, ?_⟩
          exact ih body (List.mem_singleton_self body) inBody
      | _ =>
          exact alike

/-! ## What programs can tell about values -/

/--
The function reads of a value neither names nor numbers of functions, and of a
collection only its length.  Most such functions are constant on each constructor.
-/
structure ReadsSurface {Result : Type} (read : Value → Result) : Prop where
  symbol : ∀ name name', read (symbol name) = read (symbol name') := by
    intros; rfl
  list :
    ∀ items items' : List Value,
      items.length = items'.length → read (list items) = read (list items') := by
    intros; rfl
  vector :
    ∀ items items' : List Value,
      items.length = items'.length → read (vector items) = read (vector items') := by
    intros; rfl
  map :
    ∀ entries entries' : List (Value × Value),
      entries.length = entries'.length → read (map entries) = read (map entries') := by
    intros; rfl
  closure :
    ∀ identity identity' parameters parameters' body body' home home',
      read (closure identity parameters body home) =
        read (closure identity' parameters' body' home') := by
    intros; rfl
  native :
    ∀ identity identity' routine,
      read (native identity routine) = read (native identity' routine) := by
    intros; rfl

/-- Such a function gives the same for values that are alike. -/
theorem Alike.read_eq
    {Result : Type}
    {read : Value → Result}
    (surface : ReadsSurface read)
    {value other : Value}
    (alike : value.Alike translation pairing names other) :
    read value = read other := by
  cases value with
  | symbol name =>
      obtain ⟨-, rfl⟩ := alike_symbol_iff.1 alike
      exact surface.symbol _ _
  | list items =>
      obtain ⟨others, rfl, inItems⟩ := alike_list_iff.1 alike
      exact surface.list _ _ inItems.length_eq
  | vector items =>
      obtain ⟨others, rfl, inItems⟩ := alike_vector_iff.1 alike
      exact surface.vector _ _ inItems.length_eq
  | map entries =>
      obtain ⟨others, rfl, inEntries⟩ := alike_map_iff.1 alike
      exact surface.map _ _ inEntries.length_eq
  | closure identity parameters body home =>
      obtain ⟨body', home', scope, rfl, -⟩ := alike_closure_iff.1 alike
      exact surface.closure _ _ _ _ _ _ _ _
  | native identity routine =>
      cases alike_native_iff.1 alike
      exact surface.native _ _ _
  | _ =>
      cases alike
      rfl

theorem readsSurface_rank : ReadsSurface rank where

theorem readsSurface_isTruthy : ReadsSurface isTruthy where

theorem readsSurface_isFunction : ReadsSurface isFunction where

theorem readsSurface_isList : ReadsSurface isList where

theorem readsSurface_size? : ReadsSurface size? where
  list := fun _ _ sameLength => congrArg some sameLength
  vector := fun _ _ sameLength => congrArg some sameLength
  map := fun _ _ sameLength => congrArg some sameLength

theorem Alike.rank_eq
    {value other : Value}
    (alike : value.Alike translation pairing names other) :
    other.rank = value.rank :=
  (alike.read_eq readsSurface_rank).symm

theorem Alike.parts
    {value other : Value}
    (alike : value.Alike translation pairing names other) :
    List.Forall₂ (Alike translation pairing names) value.parts other.parts := by
  cases value with
  | symbol name =>
      obtain ⟨-, rfl⟩ := alike_symbol_iff.1 alike
      exact .nil
  | list items =>
      obtain ⟨_, rfl, inItems⟩ := alike_list_iff.1 alike
      exact inItems
  | vector items =>
      obtain ⟨_, rfl, inItems⟩ := alike_vector_iff.1 alike
      exact inItems
  | map entries =>
      obtain ⟨_, rfl, inEntries⟩ := alike_map_iff.1 alike
      exact forall₂_items_of_entries inEntries
  | closure identity parameters body home =>
      obtain ⟨_, _, _, rfl, -⟩ := alike_closure_iff.1 alike
      exact .nil
  | native identity routine =>
      cases alike_native_iff.1 alike
      exact .nil
  | _ =>
      cases alike
      exact .nil

/-- Sequences are alike item by item, and nothing else is like a sequence. -/
theorem Alike.items?
    {value other : Value}
    (alike : value.Alike translation pairing names other) :
    Option.Rel (List.Forall₂ (Alike translation pairing names)) value.items? other.items? := by
  cases value with
  | symbol name =>
      obtain ⟨-, rfl⟩ := alike_symbol_iff.1 alike
      exact .none
  | list items =>
      obtain ⟨_, rfl, inItems⟩ := alike_list_iff.1 alike
      exact .some inItems
  | vector items =>
      obtain ⟨_, rfl, inItems⟩ := alike_vector_iff.1 alike
      exact .some inItems
  | map entries =>
      obtain ⟨_, rfl, -⟩ := alike_map_iff.1 alike
      exact .none
  | closure identity parameters body home =>
      obtain ⟨_, _, _, rfl, -⟩ := alike_closure_iff.1 alike
      exact .none
  | native identity routine =>
      cases alike_native_iff.1 alike
      exact .none
  | _ =>
      cases alike
      exact .none

/-- Nothing but a number is like the number. -/
theorem eq_number_of_alike
    {value : Value}
    {integer : Int64}
    (alike : value.Alike translation pairing names (number integer)) :
    value = number integer := by
  have sameRank := alike.rank_eq
  cases value with
  | number other =>
      cases alike
      rfl
  | _ => cases sameRank

/-- Nothing but a symbol is like a symbol. -/
theorem exists_symbol_of_alike
    {value : Value}
    {name : String}
    (alike : value.Alike translation pairing names (symbol name)) :
    ∃ other, value = symbol other := by
  have sameRank := alike.rank_eq
  cases value with
  | symbol other => exact ⟨other, rfl⟩
  | _ => cases sameRank

/-- Values are described alike, as descriptions show no names. -/
theorem Alike.describe_eq
    {value other : Value}
    (alike : value.Alike translation pairing names other) :
    value.describe = other.describe := by
  induction value using induction_on_parts generalizing other with
  | step value ih =>
      have inParts : value.parts.map describe = other.parts.map describe :=
        map_eq_map_of_forall₂
          (forall₂_imp_of_mem alike.parts fun part member _ same => ih part member same)
      cases value with
      | symbol name =>
          obtain ⟨-, rfl⟩ := alike_symbol_iff.1 alike
          rfl
      | list items =>
          obtain ⟨others, rfl, -⟩ := alike_list_iff.1 alike
          simp only [parts_list] at inParts
          simp only [describe, describeItems_eq_map, inParts]
      | vector items =>
          obtain ⟨others, rfl, -⟩ := alike_vector_iff.1 alike
          simp only [parts_vector] at inParts
          simp only [describe, describeItems_eq_map, inParts]
      | map entries =>
          obtain ⟨others, rfl, -⟩ := alike_map_iff.1 alike
          simp only [parts_map] at inParts
          simp only [describe, describeEntries_eq_map, inParts]
      | closure identity parameters body home =>
          obtain ⟨_, _, _, rfl, -⟩ := alike_closure_iff.1 alike
          rfl
      | native identity routine =>
          cases alike_native_iff.1 alike
          rfl
      | _ =>
          cases alike
          rfl

/-- The values are alike, and their own symbols have the same names in both runs. -/
abbrev Matches
    (translation : Translation)
    (pairing : Pairing)
    (value other : Value) :
    Prop :=
  value.Alike translation pairing (fun name => translation.name name = name) other

/-- Values that match are written alike. -/
theorem Matches.write_eq
    {value other : Value}
    (same : value.Matches translation pairing other)
    (style : Style) :
    value.write style = other.write style := by
  induction value using induction_on_parts generalizing other with
  | step value ih =>
      have inParts : value.parts.map (write style) = other.parts.map (write style) :=
        map_eq_map_of_forall₂
          (forall₂_imp_of_mem same.parts fun part member _ matched => ih part member matched)
      cases value with
      | symbol name =>
          obtain ⟨isFixed, rfl⟩ := alike_symbol_iff.1 same
          rw [isFixed]
      | list items =>
          obtain ⟨others, rfl, -⟩ := alike_list_iff.1 same
          rw [parts_list, parts_list] at inParts
          rw [write_list, write_list, inParts]
      | vector items =>
          obtain ⟨others, rfl, -⟩ := alike_vector_iff.1 same
          rw [parts_vector, parts_vector] at inParts
          rw [write_vector, write_vector, inParts]
      | map entries =>
          obtain ⟨others, rfl, -⟩ := alike_map_iff.1 same
          rw [parts_map, parts_map] at inParts
          rw [write_map, write_map, inParts]
      | closure identity parameters body home =>
          obtain ⟨_, _, _, rfl, -⟩ := alike_closure_iff.1 same
          rfl
      | native identity routine =>
          cases alike_native_iff.1 same
          rfl
      | _ =>
          cases same
          rfl

theorem Matches.readable_eq
    {value other : Value}
    (same : value.Matches translation pairing other) :
    value.readable = other.readable := by
  rw [readable, readable, same.write_eq]

private theorem orderItems_eq_of_each
    {lefts lefts' rights rights' : List Value}
    (leftsMatch : List.Forall₂ (Matches translation pairing) lefts lefts')
    (rightsMatch : List.Forall₂ (Matches translation pairing) rights rights')
    (each :
      ∀ left ∈ lefts, ∀ left' right right' : Value,
        left.Matches translation pairing left' → right.Matches translation pairing right' →
          left.order right = left'.order right') :
    orderItems lefts rights = orderItems lefts' rights' := by
  induction leftsMatch generalizing rights rights' with
  | nil =>
      cases rightsMatch with
      | nil => rfl
      | cons => rfl
  | cons head tail ih =>
      cases rightsMatch with
      | nil => rfl
      | cons other others =>
          rw [orderItems, orderItems, each _ List.mem_cons_self _ _ _ head other]
          rw [ih others fun left member => each left (List.mem_cons_of_mem _ member)]

/-- The translation keeps the order in which functions were made. -/
theorem compare_function
    (translation : Translation)
    (left right : Nat) :
    compare (translation.function left) (translation.function right) = compare left right := by
  rcases Nat.lt_trichotomy left right with below | rfl | above
  · rw [Nat.compare_eq_lt.2 below, Nat.compare_eq_lt.2 (translation.function_strictMono below)]
  · rw [Nat.compare_eq_eq.2 rfl, Nat.compare_eq_eq.2 rfl]
  · rw [Nat.compare_eq_gt.2 above, Nat.compare_eq_gt.2 (translation.function_strictMono above)]

private theorem order_eq_of_single
    {left left' right right' : Value}
    (leftMatches : left.Matches translation pairing left')
    (rightMatches : right.Matches translation pairing right')
    (single : left.isCollection = false)
    (sameRank : left.rank = right.rank) :
    left.order right = left'.order right' := by
  cases left with
  | symbol name =>
      cases right with
      | symbol name' =>
          obtain ⟨isFixed, rfl⟩ := alike_symbol_iff.1 leftMatches
          obtain ⟨isFixed', rfl⟩ := alike_symbol_iff.1 rightMatches
          rw [isFixed, isFixed']
      | _ => cases sameRank
  | closure =>
      cases right with
      | closure =>
          obtain ⟨_, _, _, rfl, -⟩ := alike_closure_iff.1 leftMatches
          obtain ⟨_, _, _, rfl, -⟩ := alike_closure_iff.1 rightMatches
          exact (compare_function translation _ _).symm
      | _ => cases sameRank
  | native =>
      cases right with
      | native =>
          cases alike_native_iff.1 leftMatches
          cases alike_native_iff.1 rightMatches
          exact (compare_function translation _ _).symm
      | _ => cases sameRank
  | list items => cases single
  | vector items => cases single
  | map entries => cases single
  | _ =>
      cases right with
      | symbol name => cases sameRank
      | list items => cases sameRank
      | vector items => cases sameRank
      | map entries => cases sameRank
      | closure => cases sameRank
      | native => cases sameRank
      | _ =>
          cases leftMatches
          cases rightMatches
          rfl

/-- Values that match are compared alike. -/
theorem Matches.order_eq
    {left left' right right' : Value}
    (leftMatches : left.Matches translation pairing left')
    (rightMatches : right.Matches translation pairing right') :
    left.order right = left'.order right' := by
  induction left using induction_on_parts generalizing left' right right' with
  | step left ih =>
      have leftRank := leftMatches.rank_eq
      have rightRank := rightMatches.rank_eq
      by_cases sameRank : left.rank = right.rank
      · by_cases collection : left.isCollection = true
        · rw [order_of_collections collection sameRank]
          rw [order_of_collections (isCollection_of_rank_eq collection leftRank.symm)
            (by rw [leftRank, rightRank, sameRank])]
          exact orderItems_eq_of_each leftMatches.parts rightMatches.parts
            fun part member _ _ _ same others => ih part member same others
        · have single := Bool.eq_false_iff.2 collection
          exact order_eq_of_single leftMatches rightMatches single sameRank
      · rw [order_of_rank_ne sameRank, order_of_rank_ne, leftRank, rightRank]
        rw [leftRank, rightRank]
        exact sameRank

/-- Values that match are equal to values that match, or unequal, alike. -/
theorem Matches.beq_eq
    {left left' right right' : Value}
    (leftMatches : left.Matches translation pairing left')
    (rightMatches : right.Matches translation pairing right') :
    (left == right) = (left' == right') := by
  rw [Bool.eq_iff_iff, beq_eq_equal, beq_eq_equal, ← order_eq_iff, ← order_eq_iff,
    leftMatches.order_eq rightMatches]

end Value

/-- Results that match have the same text, or the same fault under the names of the second run. -/
theorem ResultsAgree.map_readable
    {translation : Translation}
    {pairing : Pairing}
    {result other : Except Fault Value}
    (agree : ResultsAgree translation (Value.Matches translation pairing) result other) :
    other.map Value.readable =
      (result.map Value.readable).mapError (Fault.rename translation.name) := by
  cases agree with
  | fault fault => rfl
  | result holds => exact congrArg Except.ok holds.readable_eq.symm

/-! ## Entries of maps -/

namespace Entries

open MiniLisp.Value (Matches)

/-- Two pairs of values that match. -/
abbrev PairMatches
    (translation : Translation)
    (pairing : Pairing) :
    Value × Value → Value × Value → Prop :=
  EntriesRelated (Matches translation pairing)

variable
  {translation : Translation}
  {pairing : Pairing}

theorem forall₂_insert
    {key value key' value' : Value}
    {entries others : List (Value × Value)}
    (keys : key.Matches translation pairing key')
    (values : value.Matches translation pairing value')
    (same : List.Forall₂ (PairMatches translation pairing) entries others) :
    List.Forall₂ (PairMatches translation pairing)
      (insert key value entries) (insert key' value' others) := by
  induction same with
  | nil =>
      exact .cons ⟨keys, values⟩ .nil
  | cons head tail ih =>
      rw [insert, insert, keys.order_eq head.1]
      split
      · exact .cons ⟨keys, values⟩ (.cons head tail)
      · exact .cons ⟨keys, values⟩ tail
      · exact .cons head ih

/-- Maps that are built from pairs that match have entries that match. -/
theorem forall₂_ofPairs
    {pairs others : List (Value × Value)}
    (same : List.Forall₂ (PairMatches translation pairing) pairs others) :
    List.Forall₂ (PairMatches translation pairing) (ofPairs pairs) (ofPairs others) := by
  have fold
      {entries entries' : List (Value × Value)}
      (built : List.Forall₂ (PairMatches translation pairing) entries entries') :
      List.Forall₂ (PairMatches translation pairing)
        (pairs.foldl (fun entries pair => insert pair.1 pair.2 entries) entries)
        (others.foldl (fun entries pair => insert pair.1 pair.2 entries) entries') := by
    induction same generalizing entries entries' with
    | nil => exact built
    | cons head tail ih => exact ih (forall₂_insert head.1 head.2 built)
  exact fold .nil

end Entries

end MiniLisp
