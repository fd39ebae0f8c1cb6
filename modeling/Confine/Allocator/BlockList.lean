import Confine.Allocator.Basic

/-! # Rearranging the block list

Blocks are taken from the first free one that is large enough, or appended at the break. A block
that is larger than needed is split, and a free block absorbs its successor where both are free and
touch.
-/

namespace Confine.Allocator

/-- The least amount by which the allocator grows the heap while there is room for it. -/
def minExtension : Nat := 64 * 1024

/-- The size of the block that holds `size` bytes of payload, if it is a word. -/
def requiredSize (size : Nat) : Option Nat := do
  let whole ← Word.add? size Header.bytes
  Word.roundUp? whole Header.bytes

/-- The first free block of at least `required` bytes, from a block on. -/
def firstFitFrom (a : Allocator) (required : Nat) :
    (bound : Nat) → (block : Option Nat) → Except Fault (Option Nat)
  | _, none => .ok none
  | 0, some _ => .error .endless
  | bound + 1, some block =>
    match a.headerOf block with
    | .error cause => .error (.panic cause)
    | .ok header =>
      if !header.allocated && required ≤ header.size then .ok (some block)
      else a.firstFitFrom required bound header.next

/-- The first free block of at least `required` bytes. -/
def firstFit (required : Nat) : Action (Option Nat) := do
  let a ← get
  match a.firstFitFrom required a.walkBound a.head with
  | .ok block => pure block
  | .error fault => throw fault

/-- Move the break by a signed distance and return where it was. -/
def moveBreak (increment : Int) : Action Nat := do
  let a ← get
  match a.heap.extend increment with
  | .ok (previous, heap) =>
    set { a with heap }
    return previous
  | .error cause => fail cause

/-- Move the break over `padding` and `size` bytes and return the offset between the two. -/
def claim (padding size : Nat) : Action Nat := do
  let increment ← orExhausted ((Word.add? padding size).filter (· < 2 ^ 63))
  let previous ← moveBreak increment
  return previous + padding

/-- Append a free block of at least `required` bytes. The break may have been moved by others to
where no header can start, hence the padding. Where the capacity cannot hold a whole extension any
more, the block is as small as it can be. -/
def grow (required : Nat) : Action Nat := do
  let brk := (← get).heap.brk
  let padding := (← orPanic (Word.nextMultiple brk Header.bytes)) - brk
  let wanted := max required minExtension
  let (offset, size) ←
    try pure (← claim padding wanted, wanted)
    catch _ => pure (← claim padding required, required)
  let last := (← get).tail
  storeHeader offset { prev := last, next := none, size, allocated := false, reserved := 0 }
  match last with
  | some block => update block ({ · with next := some offset })
  | none => modify ({ · with head := some offset })
  modify fun a => { a with tail := some offset, growths := ⟨offset, size⟩ :: a.growths }
  return offset

/-- Absorb the successor of a block if both are free and touch. -/
def coalesce (block : Nat) : Action Unit := do
  let own ← header block
  let some next := own.next | return
  let successor ← header next
  if own.allocated || successor.allocated then return
  if (← orPanic (Word.add block own.size)) ≠ next then return
  linkBack block successor.next
  let current ← header block
  let size ← orPanic (Word.add current.size successor.size)
  storeHeader block { current with size, next := successor.next }

/-- Shrink a block to `required` bytes and make a free block of what is left, unless that could hold
no more than a header. -/
def split (block required : Nat) : Action Unit := do
  let own ← header block
  let rest ← orPanic (Word.sub own.size required)
  if rest ≤ Header.bytes then return
  let excess ← orPanic (Word.add block required)
  storeHeader excess
    { prev := some block, next := own.next, size := rest, allocated := false, reserved := 0 }
  linkBack excess own.next
  update block ({ · with size := required, next := some excess })
  coalesce excess

/-- Take a block of at least `required` bytes and mark it as allocated. -/
def takeBlock (required : Nat) : Action Nat := do
  let block ←
    match ← firstFit required with
    | some block => pure block
    | none => grow required
  split block required
  update block ({ · with allocated := true })
  return block

/-- Mark a block as free and merge it with its neighbours. -/
def release (block : Nat) : Action Unit := do
  update block ({ · with allocated := false })
  coalesce block
  match (← header block).prev with
  | some prev => coalesce prev
  | none => return

end Confine.Allocator
