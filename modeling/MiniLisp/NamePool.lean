import MiniLisp.NamePool.Memory

/-!
# Pooled names

This module supplies a pool in which each text is kept once.  A name refers to its
text by the place of the text in memory, so that two names are equal exactly if
their places are.  The pool is itself an owner of every text that was ever asked
for, so that no text goes when the names do.  Symbols and keywords share one pool.
-/

namespace MiniLisp

/-- A place in memory, with the text that is read there. -/
structure PooledName where
  place : Place
  text : String
deriving DecidableEq, Repr

namespace PooledName

/-- Names are the same if they have the same place. -/
def same (left right : PooledName) : Bool :=
  left.place == right.place

/-- Symbols are ordered by their texts unless they have the same place. -/
def orderSymbols (left right : PooledName) : Ordering :=
  if left.same right then
    .eq
  else
    compare left.text right.text

/-- Keywords are ordered by their texts. -/
def orderKeywords (left right : PooledName) : Ordering :=
  compare left.text right.text

/-- What a name contributes to a hash. -/
def fingerprint (name : PooledName) : Nat :=
  name.place

end PooledName

/-- What a name is made to be. -/
inductive NameKind where
  | symbol
  | keyword
deriving DecidableEq, Repr

namespace NameKind

/-- The comparison of two names of a kind. -/
def order : NameKind → PooledName → PooledName → Ordering
  | symbol => PooledName.orderSymbols
  | keyword => PooledName.orderKeywords

end NameKind

/-- The memory in which texts lie, and the places of which the pool is an owner. -/
structure NamePool where
  memory : Memory
  kept : List Place

namespace NamePool

/-- The pool without any texts. -/
def empty : NamePool := ⟨Memory.empty, []⟩

/-- The place at which the pool keeps a text. -/
def place? (pool : NamePool) (text : String) : Option Place :=
  pool.kept.find? fun place => pool.memory.text? place == some text

/-- The pool with a text at a place, of which the pool is the owner. -/
def add (pool : NamePool) (place : Place) (text : String) : NamePool :=
  ⟨pool.memory.put place text, pool.kept ++ [place]⟩

/-- The pool with one more owner of what lies at a place. -/
def share (pool : NamePool) (place : Place) : NamePool :=
  { pool with memory := pool.memory.share place }

/-- The pool after an owner let go of what lies at a place. -/
def release (pool : NamePool) (place : Place) : NamePool :=
  { pool with memory := pool.memory.release place }

/--
The place of a text, and the pool that keeps it there.  A text that the pool does
not keep yet is put at a free place.  Whoever asked is one more owner.
-/
def intern (pool : NamePool) (free : Place) (text : String) : Place × NamePool :=
  match pool.place? text with
  | some place => (place, pool.share place)
  | none => (free, (pool.add free text).share free)

/-- The first place after all at which the pool keeps texts. -/
def nextPlace (pool : NamePool) : Place :=
  pool.kept.foldr (fun place next => max (place + 1) next) 0

/-- The places of texts that are asked for in turn, and the pool that keeps them all. -/
def internEach (pool : NamePool) : List String → List Place × NamePool
  | [] => ([], pool)
  | text :: texts =>
    let (place, pool) := pool.intern pool.nextPlace text
    let (places, pool) := pool.internEach texts
    (place :: places, pool)

/-- The name with a place, if a text lies there. -/
def name? (pool : NamePool) (place : Place) : Option PooledName :=
  (pool.memory.text? place).map fun text => ⟨place, text⟩

/-- The names of texts, read when all were asked for, and the pool that keeps them all. -/
def internAll (pool : NamePool) (texts : List String) : List PooledName × NamePool :=
  let (places, pool) := pool.internEach texts
  (places.filterMap pool.name?, pool)

end NamePool

end MiniLisp
