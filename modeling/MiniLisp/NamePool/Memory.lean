/-!
# Texts in memory

This module supplies texts that lie in memory and are shared by owners.  A text is
put at a place with one owner.  It stays there, and stays the same, until its last
owner lets go; the place is free from then on.
-/

namespace MiniLisp

/-- The number of a place in memory. -/
abbrev Place := Nat

/-- A text with its owners, of whom there is always one. -/
structure SharedText where
  text : String
  /-- How many owners there are besides the first. -/
  others : Nat
deriving DecidableEq, Repr

namespace SharedText

/-- How many owners there are. -/
def owners (shared : SharedText) : Nat := shared.others + 1

/-- The text with one more owner. -/
def share (shared : SharedText) : SharedText :=
  { shared with others := shared.others + 1 }

/-- The text without one of its owners, if another one is left. -/
def release? (shared : SharedText) : Option SharedText :=
  match shared.others with
  | 0 => none
  | others + 1 => some { shared with others }

/-- Where another owner is left, so is the text. -/
theorem map_text_release?
    {shared : SharedText}
    (another : 1 < shared.owners) :
    shared.release?.map text = some shared.text := by
  obtain ⟨text, others⟩ := shared
  cases others with
  | zero => exact absurd another (Nat.lt_irrefl 1)
  | succ others => rfl

end SharedText

/-- What lies at each place. -/
structure Memory where
  shared? : Place → Option SharedText

namespace Memory

/-- The memory in which all places are free. -/
def empty : Memory := ⟨fun _ => none⟩

/-- The memory with other content at a place. -/
def set (memory : Memory) (place : Place) (content : Option SharedText) : Memory :=
  ⟨fun other => if other = place then content else memory.shared? other⟩

/-- The memory with a text at a place, for one owner. -/
def put (memory : Memory) (place : Place) (text : String) : Memory :=
  memory.set place (some ⟨text, 0⟩)

/-- The memory with one more owner of what lies at a place. -/
def share (memory : Memory) (place : Place) : Memory :=
  memory.set place ((memory.shared? place).map SharedText.share)

/-- The memory after an owner let go of what lies at a place. -/
def release (memory : Memory) (place : Place) : Memory :=
  memory.set place ((memory.shared? place).bind SharedText.release?)

/-- The text at a place. -/
def text? (memory : Memory) (place : Place) : Option String :=
  (memory.shared? place).map SharedText.text

/-- How many own what lies at a place. -/
def owners (memory : Memory) (place : Place) : Nat :=
  (memory.shared? place).elim 0 SharedText.owners

/-- The places without owners are the free ones. -/
theorem owners_eq_zero_iff
    {memory : Memory}
    {place : Place} :
    memory.owners place = 0 ↔ memory.shared? place = none := by
  rw [owners]
  cases memory.shared? place with
  | none => simp
  | some shared => simp [SharedText.owners]

theorem text?_set
    (memory : Memory)
    (place : Place)
    (content : Option SharedText)
    (other : Place) :
    (memory.set place content).text? other =
      if other = place then content.map SharedText.text else memory.text? other := by
  simp only [text?, set]
  split <;> rfl

theorem owners_set
    (memory : Memory)
    (place : Place)
    (content : Option SharedText)
    (other : Place) :
    (memory.set place content).owners other =
      if other = place then content.elim 0 SharedText.owners else memory.owners other := by
  simp only [owners, set]
  split <;> rfl

theorem text?_put
    (memory : Memory)
    (place : Place)
    (text : String)
    (other : Place) :
    (memory.put place text).text? other =
      if other = place then some text else memory.text? other :=
  text?_set memory place _ other

theorem owners_put
    (memory : Memory)
    (place : Place)
    (text : String)
    (other : Place) :
    (memory.put place text).owners other =
      if other = place then 1 else memory.owners other :=
  owners_set memory place _ other

/-- More owners change no text. -/
@[simp]
theorem text?_share
    (memory : Memory)
    (place other : Place) :
    (memory.share place).text? other = memory.text? other := by
  rw [share, text?_set]
  split
  · next same =>
      subst same
      rw [text?, Option.map_map]
      rfl
  · rfl

theorem owners_share
    {memory : Memory}
    {place : Place}
    (owned : 0 < memory.owners place)
    (other : Place) :
    (memory.share place).owners other =
      if other = place then memory.owners place + 1 else memory.owners other := by
  have onceMore :
      ((memory.shared? place).map SharedText.share).elim 0 SharedText.owners =
        memory.owners place + 1 := by
    cases found : memory.shared? place with
    | none => exact absurd (owners_eq_zero_iff.2 found) (Nat.pos_iff_ne_zero.1 owned)
    | some shared => rw [owners, found]; rfl
  rw [share, owners_set, onceMore]

theorem owners_release
    (memory : Memory)
    (place other : Place) :
    (memory.release place).owners other =
      if other = place then memory.owners place - 1 else memory.owners other := by
  have onceLess :
      ((memory.shared? place).bind SharedText.release?).elim 0 SharedText.owners =
        memory.owners place - 1 := by
    rw [owners]
    cases memory.shared? place with
    | none => rfl
    | some shared =>
        obtain ⟨text, others⟩ := shared
        cases others with
        | zero => rfl
        | succ others => rfl
  rw [release, owners_set, onceLess]

/-- A text stays for as long as another owner is left. -/
theorem text?_release
    {memory : Memory}
    {place : Place}
    (another : 1 < memory.owners place)
    (other : Place) :
    (memory.release place).text? other = memory.text? other := by
  rw [release, text?_set]
  split
  · next same =>
      subst same
      rw [text?]
      rw [owners] at another
      cases found : memory.shared? other with
      | none => rfl
      | some shared =>
          rw [found] at another
          exact SharedText.map_text_release? another
  · rfl

end Memory

end MiniLisp
