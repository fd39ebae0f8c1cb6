import Confine.Proofs.Layout

/-! # What the operations do to a layout

The allocator's operations on layouts alone: which block serves a request, where a new one is
appended, and how the break moves.  An operation that cannot be carried out has no result.
-/

namespace Confine

open Block

/-- The blocks of a heap region and its break. -/
structure Layout where
  base : Nat
  capacity : Nat
  brk : Nat
  blocks : List Block
  /-- The blocks appended so far, newest first. -/
  growths : List Growth

namespace Layout

def empty (base capacity : Nat) : Layout :=
  ⟨base, capacity, 0, [], []⟩

def withBlocks (l : Layout) (bs : List Block) : Layout :=
  { l with blocks := bs }

def replace (l : Layout) (offset : Nat) (f : Block → List Block) : Layout :=
  l.withBlocks (compact (replaceAt offset f l.blocks))

/-- Whether a block can serve a request of `required` bytes. -/
def serves (required : Nat) (b : Block) : Bool :=
  !b.allocated && required ≤ b.size

/-- The size of the block appended for a request. -/
def growth (l : Layout) (required : Nat) : Nat :=
  let wanted := max required Allocator.minExtension
  if Word.roundUp l.brk 32 + wanted ≤ l.capacity then wanted else required

/-- Append a free block at the first multiple of 32 from the break on. -/
def grow (l : Layout) (required : Nat) : Option Layout :=
  let offset := Word.roundUp l.brk 32
  let size := l.growth required
  if offset + size ≤ l.capacity then
    some { l with
      brk := offset + size
      blocks := l.blocks ++ [⟨offset, size, false⟩]
      growths := ⟨offset, size⟩ :: l.growths }
  else none

/-- The offset of the free block that serves a request, and a layout that has it. -/
def find (l : Layout) (required : Nat) : Option (Nat × Layout) :=
  match l.blocks.find? (serves required) with
  | some b => some (b.offset, l)
  | none => (l.grow required).map (Word.roundUp l.brk 32, ·)

/-- Allocate a block of `required` bytes, header included. -/
def take (l : Layout) (required : Nat) : Option (Nat × Layout) := do
  let (offset, l) ← l.find required
  return (offset, l.replace offset (·.pieces 0 required))

def allocate (l : Layout) (size : Nat) : Option (Nat × Layout) := do
  l.take (← Allocator.requiredSize size)

/-- Allocate a block for `size` bytes of payload at a multiple of an alignment above 32. -/
def allocateAligned (l : Layout) (alignment size : Nat) : Option (Nat × Layout) := do
  let required ← Allocator.requiredSize size
  let (offset, taken) ← l.take (← Word.add? size alignment >>= Allocator.requiredSize)
  let address := l.base + (offset + 32)
  let gap := Word.roundUp address alignment - address
  return (offset + gap, taken.replace offset (·.pieces gap required))

/-- What lies in no allocated block and in no space that the program holds: the free blocks, and
everything behind the break. -/
def Vacant (l : Layout) (i : Nat) : Prop :=
  (∃ b ∈ l.blocks, b.allocated = false ∧ b.Covers i) ∨ l.brk ≤ i

def free (l : Layout) (offset : Nat) : Layout :=
  l.replace offset fun b => [{ b with allocated := false }]

/-- The offset behind the last block, below which the break never moves. -/
def floor (l : Layout) : Nat :=
  (l.blocks.getLast?.map stop).getD 0

/-- Move the break by a signed distance, but neither below the floor nor beyond the region. -/
def moveBreak (l : Layout) (increment : Int) : Option Layout :=
  let moved := (l.brk : Int) + increment
  if (increment < 0 → l.floor ≤ moved) ∧ moved ≤ l.capacity then some { l with brk := moved.toNat }
  else none

variable {l l' : Layout} {required : Nat}

theorem le_growth (l : Layout) (required : Nat) : required ≤ l.growth required := by
  simp only [growth]
  split
  · exact Nat.le_max_left ..
  · exact Nat.le_refl _

theorem dvd_growth (l : Layout) (grid : 32 ∣ required) : 32 ∣ l.growth required := by
  simp only [growth]
  split
  · simp only [Allocator.minExtension]
    omega
  · exact grid

theorem moveBreak_eq_some {increment : Int} (h : l.moveBreak increment = some l') :
    l' = { l with brk := l'.brk } := by
  simp only [moveBreak] at h
  split at h
  · cases h
    rfl
  · cases h

theorem grow_eq_some (h : l.grow required = some l') :
    Word.roundUp l.brk 32 + l.growth required ≤ l.capacity ∧
      l' = { l with
        brk := Word.roundUp l.brk 32 + l.growth required
        blocks := l.blocks ++ [⟨Word.roundUp l.brk 32, l.growth required, false⟩]
        growths := ⟨Word.roundUp l.brk 32, l.growth required⟩ :: l.growths } := by
  simp only [grow] at h
  split at h
  · next room =>
      cases h
      exact ⟨room, rfl⟩
  · cases h

end Layout

end Confine
