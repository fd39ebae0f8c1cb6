import Confine.Allocator.BlockList

/-! # Allocating, resizing and freeing

The operations that a program asks for. Addresses are addresses of payloads, and zero is the null
address. An operation that reports an error has changed nothing.
-/

namespace Confine.Allocator

/-- Allocate at least `size` bytes and return their address. -/
def allocate (size : Nat) : Action Nat := do
  payload (← takeBlock (← orExhausted (requiredSize size)))

/-- Allocate `count * size` zero bytes. The product is cut to a word. -/
def zeroAllocate (count size : Nat) : Action Nat := do
  let total := Word.mulWrapping count size
  let address ← allocate total
  modify fun a =>
    { a with heap.memory := a.heap.memory.fill (address - a.heap.base) total 0 }
  return address

/-- Whether the neighbour that a header names as its predecessor, or the head, leads to it. -/
def isLinked (a : Allocator) (offset : Nat) (header : Header) : Except Panic Bool := do
  match header.prev with
  | none => return a.head = some offset
  | some prev =>
    match ← a.heap.header? prev with
    | none => return false
    | some before => return before.next = some offset

/-- The block whose payload starts at an address, if that is a live block. A word that merely looks
like a header is not linked from its neighbour. -/
def liveBlock (address : Nat) : Action Nat := do
  let a ← get
  let invalid := .invalidPointer address
  match a.heap.offsetOf? (Word.subWrapping address Header.bytes) with
  | none => fail invalid
  | some offset =>
    if offset % Header.bytes ≠ 0 then fail invalid
    match ← orPanic (a.heap.header? offset) with
    | none => fail invalid
    | some header =>
      let fits := (Word.add? offset header.size).any (· ≤ a.heap.brk)
      let linked ← orPanic (a.isLinked offset header)
      if header.allocated && Header.bytes ≤ header.size && fits && linked then return offset
      else fail invalid

/-- The number of bytes in the payload of a live block. -/
def usableSize (address : Nat) : Action Nat := do
  let block ← liveBlock address
  orPanic (Word.sub (← header block).size Header.bytes)

/-- Free the block whose payload starts at an address. The null address is accepted and ignored. -/
def free (address : Nat) : Action Unit := do
  if address = 0 then return
  release (← liveBlock address)

/-- Move the contents of a block to a fresh one of at least `size` bytes, as far as both reach, and
free the old one. The null address allocates, and a size of zero frees and returns nothing. -/
def resize (address size : Nat) : Action (Option Nat) := do
  if address = 0 then
    return some (← allocate size)
  if size = 0 then
    free address
    return none
  let block ← liveBlock address
  let usable ← orPanic (Word.sub (← header block).size Header.bytes)
  let target ← allocate size
  modify fun a =>
    let base := a.heap.base
    { a with
      heap.memory := a.heap.memory.copy (address - base) (target - base) (min usable size) }
  release block
  return some target

/-- Cut a block of `gap` bytes off the front of an allocated block and free it. The rest, which
keeps the mark, is returned. -/
def carve (block gap : Nat) : Action Nat := do
  let own ← header block
  let aligned ← orPanic (Word.add block gap)
  let rest ← orPanic (Word.sub own.size gap)
  storeHeader aligned
    { prev := some block, next := own.next, size := rest, allocated := true, reserved := 0 }
  linkBack aligned own.next
  update block ({ · with size := gap, next := some aligned, allocated := false })
  match own.prev with
  | some prev => coalesce prev
  | none => pure ()
  return aligned

/-- Allocate at least `size` bytes at an address that is a multiple of `alignment`. The block taken
is large enough to move its payload up to such an address; what lies before and behind is freed
again. -/
def allocateAligned (alignment size : Nat) : Action Nat := do
  if !Word.isPowerOfTwo alignment then fail (.invalidAlignment alignment)
  if alignment ≤ Header.bytes then
    return ← allocate size
  let required ← orExhausted (requiredSize size)
  let padded ← orExhausted (Word.add? size alignment >>= requiredSize)
  let block ← takeBlock padded
  let address ← payload block
  let gap := (← orPanic (Word.nextMultiple address alignment)) - address
  if gap = 0 then
    split block required
    return address
  if gap % Header.bytes ≠ 0 then throw (.panic .gapOffGrid)
  let aligned ← carve block gap
  split aligned required
  payload aligned

/-- Move the break on behalf of the program and return the address where it was. The break never
moves back into a block. -/
def sbrk (increment : Int) : Action Nat := do
  let a ← get
  let floor ←
    match a.tail with
    | none => pure 0
    | some block => orPanic (Word.add block (← header block).size)
  if increment < 0 then
    let spare ← orPanic (Word.sub a.heap.brk floor)
    if spare < increment.natAbs then fail .outOfMemory
  let previous ← moveBreak increment
  orPanic ((← get).heap.address previous)

end Confine.Allocator
