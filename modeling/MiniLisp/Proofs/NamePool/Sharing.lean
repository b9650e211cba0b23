import Mathlib.Data.List.Basic
import Mathlib.Data.List.TFAE
import Mathlib.Logic.Relation
import Mathlib.Tactic.TFAE
import MiniLisp.NamePool
import MiniLisp.Value.Equality
import MiniLisp.Value.Fingerprint
import MiniLisp.Value.Order

/-!
# Names while a program runs

This module supplies what a pool keeps while a program asks it for names.  The
program also makes further owners of the names that it holds, and lets go of them,
in any order (`Holding.Step`).  The texts that are new to the pool are put at any
places that are free at the time.

All owners are accounted for: what lies at a place has one owner for each time that
the pool keeps the place and one for each time that the program holds it
(`NamePool.Accounts`).  So whoever lets go of a name is not the last owner of its
text, and what the pool keeps it keeps for good (`Holding.Step.keeps`).  No text is
kept at two places, so that places tell names apart exactly as texts do
(`Holding.names_coincide`), and names compare as the values do that are made of
their texts (`Holding.names_compare_as_values`).  There is always a free place, so that
whoever asks for texts gets a name for each (`Holding.exists_reaches_internAll`).
-/

namespace MiniLisp

/-! ## What tells names apart -/

namespace PooledName

/-- Names of one place are not compared by their texts, which agree in any case. -/
theorem order_eq_compare
    (kind : NameKind)
    {left right : PooledName}
    (agree : left.place = right.place → left.text = right.text) :
    kind.order left right = compare left.text right.text := by
  cases kind with
  | keyword => rfl
  | symbol =>
      rw [NameKind.order, orderSymbols]
      split
      · next same => exact (Std.LawfulEqCmp.compare_eq_iff_eq.2 (agree (beq_iff_eq.1 same))).symm
      · rfl

/-- Where places tell texts apart, so do all comparisons of names. -/
theorem tfae_of_place_eq_iff
    (kind : NameKind)
    {left right : PooledName}
    (agree : left.place = right.place ↔ left.text = right.text) :
    [left.same right = true,
      kind.order left right = .eq,
      left.fingerprint = right.fingerprint,
      left.text = right.text].TFAE := by
  tfae_have 1 ↔ 3 := beq_iff_eq
  tfae_have 2 ↔ 4 := by
    rw [order_eq_compare kind agree.1]
    exact Std.LawfulEqCmp.compare_eq_iff_eq
  tfae_have 3 ↔ 4 := agree
  tfae_finish

end PooledName

namespace NameKind

/-- The value that a name of a kind stands for. -/
def value : NameKind → String → Value
  | symbol => .symbol
  | keyword => .keyword

theorem equal_value
    (kind : NameKind)
    (left right : String) :
    (kind.value left).equal (kind.value right) = (left == right) := by
  cases kind with
  | symbol => rfl
  | keyword => rfl

theorem order_value
    (kind : NameKind)
    (left right : String) :
    (kind.value left).order (kind.value right) = compare left right := by
  cases kind with
  | symbol => rfl
  | keyword => rfl

theorem fingerprint_value_eq_iff
    (kind : NameKind)
    (left right : String) :
    (kind.value left).fingerprint = (kind.value right).fingerprint ↔ left = right := by
  cases kind with
  | symbol => simp [value, Value.fingerprint, Value.rank]
  | keyword => simp [value, Value.fingerprint, Value.rank]

end NameKind

/-! ## What a pool keeps -/

namespace NamePool

/-- The pool keeps a text at a place. -/
def Keeps (pool : NamePool) (place : Place) (text : String) : Prop :=
  place ∈ pool.kept ∧ pool.memory.text? place = some text

/-- All owners are the pool itself or hold a place, and no text is kept twice. -/
structure Accounts (pool : NamePool) (held : List Place) : Prop where
  owners :
    ∀ place, pool.memory.owners place = pool.kept.count place + held.count place
  kept :
    ∀ place ∈ held, place ∈ pool.kept
  place_eq :
    ∀ {left right : Place} {text : String},
      pool.Keeps left text → pool.Keeps right text → left = right

theorem keeps_of_place?
    {pool : NamePool}
    {text : String}
    {place : Place}
    (found : pool.place? text = some place) :
    pool.Keeps place text := by
  have reads := List.find?_some found
  exact ⟨List.mem_of_find?_eq_some found, beq_iff_eq.1 reads⟩

theorem not_keeps_of_place?
    {pool : NamePool}
    {text : String}
    (missing : pool.place? text = none)
    (place : Place) :
    ¬ pool.Keeps place text := by
  rintro ⟨isKept, reads⟩
  have differs := List.find?_eq_none.1 missing place isKept
  exact differs (beq_iff_eq.2 reads)

theorem intern_of_some
    {pool : NamePool}
    {text : String}
    {place : Place}
    (found : pool.place? text = some place)
    {free : Place} :
    pool.intern free text = (place, pool.share place) := by
  rw [NamePool.intern, found]

theorem intern_of_none
    {pool : NamePool}
    {text : String}
    (missing : pool.place? text = none)
    {free : Place} :
    pool.intern free text = (free, (pool.add free text).share free) := by
  rw [NamePool.intern, missing]

theorem lt_nextPlace
    {pool : NamePool}
    {place : Place}
    (isKept : place ∈ pool.kept) :
    place < pool.nextPlace := by
  obtain ⟨memory, kept⟩ := pool
  rw [nextPlace]
  induction kept with
  | nil => exact absurd isKept List.not_mem_nil
  | cons first kept ih =>
      rw [List.foldr_cons]
      rcases List.mem_cons.1 isKept with rfl | isKept
      · exact Nat.le_max_left _ _
      · exact Nat.lt_of_lt_of_le (ih isKept) (Nat.le_max_right _ _)

theorem Keeps.name?
    {pool : NamePool}
    {place : Place}
    {text : String}
    (keeps : pool.Keeps place text) :
    pool.name? place = some ⟨place, text⟩ := by
  rw [NamePool.name?, keeps.2]
  rfl

theorem accounts_empty : empty.Accounts [] where
  owners _ := rfl
  kept _ isHeld := absurd isHeld List.not_mem_nil
  place_eq keeps := absurd keeps.1 List.not_mem_nil

/-- More owners change nothing about what is kept. -/
theorem keeps_share_iff
    (pool : NamePool)
    (shared place : Place)
    (text : String) :
    (pool.share shared).Keeps place text ↔ pool.Keeps place text := by
  rw [Keeps, Keeps, share, Memory.text?_share]

namespace Accounts

variable
  {pool : NamePool}
  {held : List Place}
  (accounts : pool.Accounts held)

include accounts

/-- Places of kept texts are the same exactly if the texts are. -/
theorem place_eq_iff
    {left right : Place}
    {leftText rightText : String}
    (keepsLeft : pool.Keeps left leftText)
    (keepsRight : pool.Keeps right rightText) :
    left = right ↔ leftText = rightText := by
  constructor
  · rintro rfl
    exact Option.some.inj (keepsLeft.2.symm.trans keepsRight.2)
  · rintro rfl
    exact accounts.place_eq keepsLeft keepsRight

theorem owners_of_kept
    {place : Place}
    (isKept : place ∈ pool.kept) :
    0 < pool.memory.owners place := by
  have keptOnce := List.count_pos_iff.2 isKept
  rw [accounts.owners]
  exact Nat.add_pos_left keptOnce _

/-- The pool itself is an owner besides whoever holds a place. -/
theorem owners_of_held
    {place : Place}
    (isHeld : place ∈ held) :
    1 < pool.memory.owners place := by
  have heldOnce := List.count_pos_iff.2 isHeld
  have keptOnce := List.count_pos_iff.2 (accounts.kept place isHeld)
  rw [accounts.owners]
  exact Nat.add_lt_add_of_le_of_lt keptOnce heldOnce

theorem not_mem_of_free
    {place : Place}
    (isFree : pool.memory.shared? place = none) :
    place ∉ pool.kept ∧ place ∉ held := by
  have notKept : place ∉ pool.kept := by
    intro isKept
    have owned := accounts.owners_of_kept isKept
    exact Nat.ne_of_gt owned (Memory.owners_eq_zero_iff.2 isFree)
  exact ⟨notKept, fun isHeld => notKept (accounts.kept place isHeld)⟩

/-- The places that are neither kept nor held are free. -/
theorem free_of_not_kept
    {place : Place}
    (notKept : place ∉ pool.kept) :
    pool.memory.shared? place = none := by
  have notHeld : place ∉ held := fun isHeld => notKept (accounts.kept place isHeld)
  rw [← Memory.owners_eq_zero_iff, accounts.owners,
    List.count_eq_zero_of_not_mem notKept, List.count_eq_zero_of_not_mem notHeld]

/-- A text at a free place is one more that is kept. -/
theorem keeps_add_iff
    {free : Place}
    (isFree : pool.memory.shared? free = none)
    (added : String)
    (place : Place)
    (text : String) :
    (pool.add free added).Keeps place text ↔
      (place = free ∧ text = added) ∨ pool.Keeps place text := by
  obtain ⟨notKept, -⟩ := accounts.not_mem_of_free isFree
  rw [Keeps, Keeps, add, Memory.text?_put, List.mem_append, List.mem_singleton]
  by_cases atFree : place = free
  · subst atFree
    simp [notKept, eq_comm]
  · simp [atFree]

/-- Who lets go of a place takes nothing away, as the pool is another owner. -/
theorem keeps_release_iff
    {released : Place}
    (isHeld : released ∈ held)
    (place : Place)
    (text : String) :
    (pool.release released).Keeps place text ↔ pool.Keeps place text := by
  rw [Keeps, Keeps, release, Memory.text?_release (accounts.owners_of_held isHeld)]

theorem share
    {shared : Place}
    (isKept : shared ∈ pool.kept) :
    (pool.share shared).Accounts (shared :: held) where
  owners place := by
    rw [NamePool.share, Memory.owners_share (accounts.owners_of_kept isKept)]
    split
    · next same => rw [same, accounts.owners, List.count_cons_self, Nat.add_assoc]
    · next other => rw [accounts.owners, List.count_cons_of_ne (Ne.symm other)]
  kept := List.forall_mem_cons.2 ⟨isKept, accounts.kept⟩
  place_eq keepsLeft keepsRight :=
    accounts.place_eq
      ((keeps_share_iff pool shared _ _).1 keepsLeft)
      ((keeps_share_iff pool shared _ _).1 keepsRight)

theorem add
    {free : Place}
    (isFree : pool.memory.shared? free = none)
    {added : String}
    (isNew : ∀ place, ¬ pool.Keeps place added) :
    (pool.add free added).Accounts held where
  owners place := by
    obtain ⟨notKept, notHeld⟩ := accounts.not_mem_of_free isFree
    rw [NamePool.add, Memory.owners_put, List.count_append, List.count_singleton]
    split
    · next same =>
        rw [same, List.count_eq_zero_of_not_mem notKept, List.count_eq_zero_of_not_mem notHeld]
        simp
    · next other => simp [accounts.owners, Ne.symm other]
  kept place isHeld := List.mem_append_left _ (accounts.kept place isHeld)
  place_eq {left right text} keepsLeft keepsRight := by
    rw [accounts.keeps_add_iff isFree] at keepsLeft keepsRight
    -- Of two places of one text, both are the new one or neither is: the text is new.
    rcases keepsLeft with ⟨leftFree, leftAdded⟩ | keepsLeft
    · rcases keepsRight with ⟨rightFree, -⟩ | keepsRight
      · rw [leftFree, rightFree]
      · exact absurd (leftAdded ▸ keepsRight) (isNew right)
    · rcases keepsRight with ⟨-, rightAdded⟩ | keepsRight
      · exact absurd (rightAdded ▸ keepsLeft) (isNew left)
      · exact accounts.place_eq keepsLeft keepsRight

theorem release
    {released : Place}
    (isHeld : released ∈ held) :
    (pool.release released).Accounts (held.erase released) where
  owners place := by
    -- The count of holders goes down as that of owners does, as it is not zero.
    have heldOnce := List.count_pos_iff.2 isHeld
    rw [NamePool.release, Memory.owners_release, List.count_erase]
    split
    · next same =>
        subst same
        rw [accounts.owners, beq_self_eq_true, if_pos rfl, Nat.add_sub_assoc heldOnce]
    · next other => simp [accounts.owners, Ne.symm other]
  kept place stillHeld := accounts.kept place (List.mem_of_mem_erase stillHeld)
  place_eq keepsLeft keepsRight :=
    accounts.place_eq
      ((accounts.keeps_release_iff isHeld _ _).1 keepsLeft)
      ((accounts.keeps_release_iff isHeld _ _).1 keepsRight)

/-- Whoever asks for a text becomes an owner of it. -/
theorem intern
    {free : Place}
    (isFree : pool.memory.shared? free = none)
    (text : String) :
    (pool.intern free text).2.Accounts ((pool.intern free text).1 :: held) := by
  cases found : pool.place? text with
  | some place =>
      rw [intern_of_some found]
      exact accounts.share (keeps_of_place? found).1
  | none =>
      rw [intern_of_none found]
      have added := accounts.add isFree (not_keeps_of_place? found)
      exact added.share (List.mem_append_right _ (List.mem_singleton_self free))

/-- What is kept after a text was asked for: the text, at the place that is given, and the rest. -/
theorem keeps_intern_iff
    {free : Place}
    (isFree : pool.memory.shared? free = none)
    (asked : String)
    (place : Place)
    (text : String) :
    (pool.intern free asked).2.Keeps place text ↔
      (place = (pool.intern free asked).1 ∧ text = asked) ∨ pool.Keeps place text := by
  cases found : pool.place? asked with
  | some given =>
      rw [intern_of_some found, keeps_share_iff]
      refine (or_iff_right_of_imp ?_).symm
      rintro ⟨rfl, rfl⟩
      exact keeps_of_place? found
  | none => rw [intern_of_none found, keeps_share_iff, accounts.keeps_add_iff isFree]

/-- The place after all that are kept is free. -/
theorem free_nextPlace : pool.memory.shared? pool.nextPlace = none := by
  apply accounts.free_of_not_kept
  intro isKept
  exact Nat.lt_irrefl _ (lt_nextPlace isKept)

end Accounts

end NamePool

/-! ## Programs that hold names -/

/-- A name that was given out: what it was made to be, the text asked for and the place given. -/
structure Issue where
  kind : NameKind
  text : String
  place : Place

namespace Issue

/-- The name as it was asked for. -/
def name (issue : Issue) : PooledName := ⟨issue.place, issue.text⟩

/-- The value that the name stands for. -/
def value (issue : Issue) : Value := issue.kind.value issue.text

end Issue

/-- A pool, the places that a program holds, and all names that were ever given out. -/
structure Holding where
  pool : NamePool
  held : List Place
  issues : List Issue

namespace Holding

/-- The holding before any name was asked for. -/
def empty : Holding := ⟨NamePool.empty, [], []⟩

/-- The holding after a name was asked for, with a place for its text in case that it is new. -/
def ask (holding : Holding) (kind : NameKind) (text : String) (free : Place) : Holding where
  pool := (holding.pool.intern free text).2
  held := (holding.pool.intern free text).1 :: holding.held
  issues := holding.issues ++ [⟨kind, text, (holding.pool.intern free text).1⟩]

/-- The holding after a name that is held was copied. -/
def share (holding : Holding) (place : Place) : Holding :=
  { holding with
    pool := holding.pool.share place
    held := place :: holding.held }

/-- The holding after a name that is held was let go. -/
def release (holding : Holding) (place : Place) : Holding :=
  { holding with
    pool := holding.pool.release place
    held := holding.held.erase place }

/-- One thing that a program does with names. -/
inductive Step : Holding → Holding → Prop where
  | ask
      {holding : Holding}
      {free : Place}
      (isFree : holding.pool.memory.shared? free = none)
      (kind : NameKind)
      (text : String) :
      Step holding (holding.ask kind text free)
  | share
      {holding : Holding}
      {place : Place}
      (isHeld : place ∈ holding.held) :
      Step holding (holding.share place)
  | release
      {holding : Holding}
      {place : Place}
      (isHeld : place ∈ holding.held) :
      Step holding (holding.release place)

/-- A holding results from another one, step by step. -/
abbrev Reaches : Holding → Holding → Prop := Relation.ReflTransGen Step

/-- A holding results from the one before any name was asked for. -/
abbrev Grown (holding : Holding) : Prop := empty.Reaches holding

/-- All owners are accounted for, and each name given out has its text at its place. -/
structure Sound (holding : Holding) : Prop where
  accounts : holding.pool.Accounts holding.held
  keeps : ∀ issue ∈ holding.issues, holding.pool.Keeps issue.place issue.text

theorem sound_empty : empty.Sound where
  accounts := NamePool.accounts_empty
  keeps _ isIssued := absurd isIssued List.not_mem_nil

namespace Step

variable
  {before after : Holding}
  (step : before.Step after)

include step

theorem accounts
    (accounts : before.pool.Accounts before.held) :
    after.pool.Accounts after.held := by
  cases step with
  | ask isFree kind text => exact accounts.intern isFree text
  | share isHeld => exact accounts.share (accounts.kept _ isHeld)
  | release isHeld => exact accounts.release isHeld

/-- What the pool keeps it keeps for good. -/
theorem keeps
    (accounts : before.pool.Accounts before.held)
    {place : Place}
    {text : String}
    (keeps : before.pool.Keeps place text) :
    after.pool.Keeps place text := by
  cases step with
  | ask isFree kind asked => exact (accounts.keeps_intern_iff isFree asked _ _).2 (.inr keeps)
  | share isHeld => exact (NamePool.keeps_share_iff _ _ _ _).2 keeps
  | release isHeld => exact (accounts.keeps_release_iff isHeld _ _).2 keeps

/-- A name that is given out has its text at its place, and the names before it stay. -/
theorem issues
    (accounts : before.pool.Accounts before.held) :
    ∃ issued,
      after.issues = before.issues ++ issued ∧
        ∀ issue ∈ issued, after.pool.Keeps issue.place issue.text := by
  cases step with
  | ask isFree kind text =>
      refine ⟨_, rfl, List.forall_mem_singleton.2 ?_⟩
      exact (accounts.keeps_intern_iff isFree text _ _).2 (.inl ⟨rfl, rfl⟩)
  | share isHeld => exact ⟨[], (List.append_nil _).symm, List.forall_mem_nil _⟩
  | release isHeld => exact ⟨[], (List.append_nil _).symm, List.forall_mem_nil _⟩

theorem sound
    (sound : before.Sound) :
    after.Sound := by
  obtain ⟨issued, whole, keepsIssued⟩ := step.issues sound.accounts
  refine ⟨step.accounts sound.accounts, ?_⟩
  rw [whole]
  refine List.forall_mem_append.2 ⟨fun issue isIssued => ?_, keepsIssued⟩
  exact step.keeps sound.accounts (sound.keeps issue isIssued)

end Step

theorem Reaches.sound
    {before after : Holding}
    (reaches : before.Reaches after)
    (sound : before.Sound) :
    after.Sound := by
  induction reaches with
  | refl => exact sound
  | tail _ step ih => exact step.sound ih

/-- The names that were given out stay on record. -/
theorem Reaches.issues
    {before after : Holding}
    (reaches : before.Reaches after)
    (sound : before.Sound)
    {issue : Issue}
    (isIssued : issue ∈ before.issues) :
    issue ∈ after.issues := by
  induction reaches with
  | refl => exact isIssued
  | tail reaches step ih =>
      obtain ⟨issued, whole, -⟩ := step.issues (Reaches.sound reaches sound).accounts
      rw [whole]
      exact List.mem_append_left _ ih

theorem Grown.sound
    {holding : Holding}
    (grown : holding.Grown) :
    holding.Sound :=
  Reaches.sound grown sound_empty

namespace Sound

variable
  {holding : Holding}
  (sound : holding.Sound)

include sound

theorem name?_eq
    {issue : Issue}
    (isIssued : issue ∈ holding.issues) :
    holding.pool.name? issue.place = some issue.name :=
  (sound.keeps issue isIssued).name?

theorem place_eq_iff
    {left right : Issue}
    (isLeft : left ∈ holding.issues)
    (isRight : right ∈ holding.issues) :
    left.place = right.place ↔ left.text = right.text :=
  sound.accounts.place_eq_iff (sound.keeps left isLeft) (sound.keeps right isRight)

/-- Texts can always be asked for in turn, as there is always a free place. -/
theorem exists_reaches_internEach
    (kind : NameKind)
    (texts : List String) :
    ∃ later issued,
      holding.Reaches later ∧
        later.pool = (holding.pool.internEach texts).2 ∧
          later.issues = holding.issues ++ issued ∧
            issued.map Issue.place = (holding.pool.internEach texts).1 ∧
              issued.map (fun issue => (issue.kind, issue.text)) =
                texts.map fun text => (kind, text) := by
  induction texts generalizing holding with
  | nil => exact ⟨holding, [], .refl, rfl, (List.append_nil _).symm, rfl, rfl⟩
  | cons text texts ih =>
      have step := Step.ask sound.accounts.free_nextPlace kind text
      obtain ⟨later, issued, reaches, samePool, whole, places, asked⟩ := ih (step.sound sound)
      let first : Issue := ⟨kind, text, (holding.pool.intern holding.pool.nextPlace text).1⟩
      refine ⟨later, first :: issued, .head step reaches, samePool, ?_, ?_, ?_⟩
      · rw [whole, ask, List.append_assoc, List.singleton_append]
      · rw [List.map_cons, places]
        rfl
      · rw [List.map_cons, asked]
        rfl

end Sound

/-! ## What names mean -/

/--
Names that were given out at any time while a program ran: the text of each is read
at its place for as long as the program runs on, whoever let go of it.  Two names
have the same place exactly if they were asked for with the same text.  For two
symbols, and for two keywords, it is one and the same that they are equal, that
neither is less, that they contribute the same to a hash, and that their texts are
the same.
-/
theorem names_coincide
    {holding later : Holding}
    (grown : holding.Grown)
    (reaches : holding.Reaches later)
    {left right : Issue}
    (isLeft : left ∈ holding.issues)
    (isRight : right ∈ later.issues) :
    later.pool.name? left.place = some left.name ∧
      later.pool.name? right.place = some right.name ∧
        (left.place = right.place ↔ left.text = right.text) ∧
          (left.kind = right.kind →
            [left.name.same right.name = true,
              left.kind.order left.name right.name = .eq,
              left.name.fingerprint = right.name.fingerprint,
              left.name.text = right.name.text].TFAE) := by
  have sound : later.Sound := reaches.sound grown.sound
  have stillLeft : left ∈ later.issues := reaches.issues grown.sound isLeft
  have agree := sound.place_eq_iff stillLeft isRight
  refine ⟨sound.name?_eq stillLeft, sound.name?_eq isRight, agree, fun _ => ?_⟩
  exact PooledName.tfae_of_place_eq_iff left.kind agree

/-- A symbol that was asked for and let go, so that the pool alone owns its text. -/
def letGo : Holding := (empty.ask .symbol "x" 7).release 7

/-- The symbol is asked for again, and then another one; another place is free for both. -/
def askedAgain : Holding := (letGo.ask .symbol "x" 5).ask .symbol "y" 5

theorem grown_letGo : letGo.Grown :=
  .tail (.single (.ask rfl .symbol "x")) (.release (List.mem_singleton_self 7))

theorem letGo_reaches_askedAgain : letGo.Reaches askedAgain :=
  .tail (.single (.ask rfl .symbol "x")) (.ask rfl .symbol "y")

/-- Nobody but the pool held the first symbol when it was asked for again. -/
theorem names_coincide_of_askedAgain :
    letGo.Grown ∧
      letGo.Reaches askedAgain ∧
        letGo.held = [] ∧
          letGo.issues = [⟨.symbol, "x", 7⟩] ∧
            askedAgain.issues = [⟨.symbol, "x", 7⟩, ⟨.symbol, "x", 7⟩, ⟨.symbol, "y", 5⟩] ∧
              askedAgain.pool.name? 7 = some ⟨7, "x"⟩ ∧
                PooledName.orderSymbols ⟨7, "x"⟩ ⟨7, "x"⟩ = .eq ∧
                  PooledName.orderSymbols ⟨7, "x"⟩ ⟨5, "y"⟩ ≠ .eq := by
  have issues :
      askedAgain.issues = [⟨.symbol, "x", 7⟩, ⟨.symbol, "x", 7⟩, ⟨.symbol, "y", 5⟩] := rfl
  have first : ⟨.symbol, "x", 7⟩ ∈ letGo.issues := List.mem_singleton_self _
  have again : ⟨.symbol, "x", 7⟩ ∈ askedAgain.issues := by simp [issues]
  have another : ⟨.symbol, "y", 5⟩ ∈ askedAgain.issues := by simp [issues]
  obtain ⟨reads, -, -, alike⟩ := names_coincide grown_letGo letGo_reaches_askedAgain first again
  obtain ⟨-, -, -, differ⟩ := names_coincide grown_letGo letGo_reaches_askedAgain first another
  refine ⟨grown_letGo, letGo_reaches_askedAgain, rfl, rfl, issues, reads, ?_, ?_⟩
  · exact ((alike rfl).out 1 3).2 rfl
  · exact fun equal => absurd (((differ rfl).out 1 3).1 equal) (by decide)

/-- Names of a kind compare as the values do that have their texts. -/
theorem names_compare_as_values
    {holding : Holding}
    (grown : holding.Grown)
    {left right : Issue}
    (isLeft : left ∈ holding.issues)
    (isRight : right ∈ holding.issues)
    (sameKind : left.kind = right.kind) :
    left.name.same right.name = left.value.equal right.value ∧
      left.kind.order left.name right.name = left.value.order right.value ∧
        (left.name.fingerprint = right.name.fingerprint ↔
          left.value.fingerprint = right.value.fingerprint) := by
  have agree : left.name.place = right.name.place ↔ left.name.text = right.name.text :=
    grown.sound.place_eq_iff isLeft isRight
  rw [Issue.value, Issue.value, ← sameKind]
  refine ⟨?_, ?_, ?_⟩
  · rw [NameKind.equal_value, Bool.eq_iff_iff, PooledName.same, beq_iff_eq, beq_iff_eq]
    exact agree
  · rw [NameKind.order_value]
    exact PooledName.order_eq_compare left.kind agree.1
  · rw [NameKind.fingerprint_value_eq_iff]
    exact agree

/-- The texts that are asked for in turn get a name each, in order, with that text. -/
theorem exists_reaches_internAll
    {holding : Holding}
    (grown : holding.Grown)
    (kind : NameKind)
    (texts : List String) :
    ∃ later issued,
      holding.Reaches later ∧
        later.pool = (holding.pool.internAll texts).2 ∧
          later.issues = holding.issues ++ issued ∧
            issued.map Issue.name = (holding.pool.internAll texts).1 ∧
              issued.map (fun issue => (issue.kind, issue.text)) =
                texts.map fun text => (kind, text) := by
  obtain ⟨later, issued, reaches, samePool, whole, places, asked⟩ :=
    grown.sound.exists_reaches_internEach kind texts
  refine ⟨later, issued, reaches, samePool, whole, ?_, asked⟩
  have sound := reaches.sound grown.sound
  have read :
      (holding.pool.internAll texts).1 = (issued.map Issue.place).filterMap later.pool.name? := by
    rw [samePool, places]
    rfl
  rw [read, List.filterMap_map, eq_comm, List.filterMap_eq_map_iff_forall_eq_some]
  intro issue isIssued
  exact sound.name?_eq (whole ▸ List.mem_append_right _ isIssued)

end Holding

end MiniLisp
