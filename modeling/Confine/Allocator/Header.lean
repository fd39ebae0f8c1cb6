import Confine.Heap

/-! # Block headers

Every block of the heap starts with a header of four words: the links to both neighbours, the size
of the whole block, and the flags. A link is the offset of a header, or the largest word for none.
`ofWords` and `words` are inverse to each other, so that a header read and stored again changes no
byte.
-/

namespace Confine

/-- The header of a block. -/
structure Header where
  /-- The offset of the previous block. -/
  prev : Option Nat
  /-- The offset of the next block. -/
  next : Option Nat
  /-- The size of the block, header included. -/
  size : Nat
  allocated : Bool
  /-- The flags without the lowest one. They have no meaning and are kept as they are. -/
  reserved : Nat
  deriving Repr, DecidableEq

/-- A block as a walk over the list shows it. -/
structure Block where
  offset : Nat
  size : Nat
  allocated : Bool
  deriving Repr, DecidableEq

namespace Header

/-- The size of a header, and the unit of block sizes and offsets. -/
def bytes : Nat := 32

/-- The link stored as a word. -/
def link (word : Nat) : Option Nat :=
  if word = Word.max then none else some word

/-- The word that stores a link. -/
def ofLink (link : Option Nat) : Nat :=
  link.getD Word.max

/-- The header stored as four words. -/
def ofWords (prev next size flags : Nat) : Header :=
  { prev := link prev
    next := link next
    size
    allocated := flags % 2 = 1
    reserved := flags / 2 }

/-- The four words that store a header. -/
def words (h : Header) : List Nat :=
  [ofLink h.prev, ofLink h.next, h.size, 2 * h.reserved + h.allocated.toNat]

theorem ofLink_link {word : Nat} : ofLink (link word) = word := by
  unfold link ofLink
  split <;> simp_all

theorem words_ofWords (prev next size flags : Nat) :
    (ofWords prev next size flags).words = [prev, next, size, flags] := by
  simp only [words, ofWords, ofLink_link, List.cons.injEq, true_and, and_true]
  by_cases h : flags % 2 = 1 <;> simp [h] <;> omega

end Header

namespace Heap

/-- The header at an offset, if it is aligned and lies below the break. -/
def header? (h : Heap) (offset : Nat) : Except Panic (Option Header) := do
  if ← h.reaches .fourWords offset then
    let word (i : Nat) := h.memory.number (offset + 8 * i) 8
    return some (.ofWords (word 0) (word 1) (word 2) (word 3))
  else return none

/-- Store a header, if it is aligned and lies below the break. -/
def storeHeader? (h : Heap) (offset : Nat) (header : Header) : Except Panic (Option Heap) :=
  h.write .fourWords offset header.words

end Heap

end Confine
