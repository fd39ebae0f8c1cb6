import Confine.Allocator.Header

/-! # The allocator's state

The allocator owns a heap and the two ends of a doubly linked list of blocks. The links and sizes
are in the heap's bytes, next to the data of the program, and every access to them goes through the
heap, which checks it. An operation is an `Action`: it ends in a value or in a fault, and in a state
in both cases.
-/

namespace Confine

/-- A block appended at the break. -/
structure Growth where
  offset : Nat
  size : Nat
  deriving Repr, DecidableEq

/-- A heap and the ends of the block list in it. -/
structure Allocator where
  heap : Heap
  /-- The offset of the first block. -/
  head : Option Nat
  /-- The offset of the last block. -/
  tail : Option Nat
  /-- The blocks appended so far, newest first. -/
  growths : List Growth
  deriving Repr

namespace Allocator

/-- An allocator without blocks. -/
def new (heap : Heap) : Allocator :=
  ⟨heap, none, none, []⟩

/-- An operation on an allocator. A fault keeps the state in which it arose. -/
abbrev Action := ExceptT Fault (StateM Allocator)

/-- Report an error. -/
def fail {α : Type} (cause : AllocError) : Action α :=
  throw (.error cause)

/-- A computation that may panic, as an action that leaves the state alone. -/
def orPanic {α : Type} : Except Panic α → Action α
  | .ok a => pure a
  | .error cause => throw (.panic cause)

/-- The value of a checked sum or product, or the error that memory is exhausted. -/
def orExhausted {α : Type} : Option α → Action α
  | some a => pure a
  | none => fail .outOfMemory

/-- The header at an offset; one that does not lie in the used heap is a panic. -/
def headerOf (a : Allocator) (block : Nat) : Except Panic Header := do
  match ← a.heap.header? block with
  | some header => return header
  | none => throw (.headerOutOfBounds block)

/-- Read the header of a block. -/
def header (block : Nat) : Action Header := do
  orPanic ((← get).headerOf block)

/-- Replace the header of a block; an offset where none fits is a panic. -/
def storeHeader (block : Nat) (header : Header) : Action Unit := do
  let a ← get
  match ← orPanic (a.heap.storeHeader? block header) with
  | some heap => set { a with heap }
  | none => throw (.panic (.headerOutOfBounds block))

/-- Change the header of a block. -/
def update (block : Nat) (change : Header → Header) : Action Unit := do
  storeHeader block (change (← header block))

/-- Make `block` the predecessor of `successor`, or the last block if there is none. -/
def linkBack (block : Nat) : (successor : Option Nat) → Action Unit
  | some next => update next ({ · with prev := some block })
  | none => modify ({ · with tail := some block })

/-- The address of the payload of a block. -/
def payload (block : Nat) : Action Nat := do
  let offset ← orPanic (Word.add block Header.bytes)
  orPanic ((← get).heap.address offset)

/-- How many blocks a walk visits at most before it has met one of them twice: headers are eight
bytes apart at least, and lie below the break. -/
def walkBound (a : Allocator) : Nat :=
  a.heap.brk / 8 + 1

/-- The blocks from one on in the order of the list, at most `limit` of them. -/
def blocksFrom (a : Allocator) : (limit : Nat) → (block : Option Nat) → Except Panic (List Block)
  | 0, _ => .ok []
  | _, none => .ok []
  | limit + 1, some block => do
    let header ← a.headerOf block
    let rest ← a.blocksFrom limit header.next
    return ⟨block, header.size, header.allocated⟩ :: rest

/-- The first `limit` blocks in the order of the list. A list whose links form a cycle has any
number. -/
def firstBlocks (a : Allocator) (limit : Nat) : Except Panic (List Block) :=
  a.blocksFrom limit a.head

/-- All blocks in the order of the list, if it ends. -/
def blocks (a : Allocator) : Except Panic (List Block) :=
  a.firstBlocks a.walkBound

/-- What ends a count of allocated blocks that has come to a cycle: the count is full at some time if
there is one on the cycle, and goes on for ever if there is none. -/
def cycleFault (a : Allocator) (block : Nat) : Fault :=
  match a.blocksFrom a.walkBound (some block) with
  | .error cause => .panic cause
  | .ok cycle => if cycle.any (·.allocated) then .panic .addOverflow else .endless

/-- How many bytes, headers included, and how many blocks are allocated, from a block on. -/
def liveUsageFrom (a : Allocator) :
    (bound : Nat) → (block : Option Nat) → (bytes count : Nat) → Except Fault (Nat × Nat)
  | _, none, bytes, count => .ok (bytes, count)
  | 0, some block, _, _ => .error (a.cycleFault block)
  | bound + 1, some block, bytes, count =>
    match a.headerOf block with
    | .error cause => .error (.panic cause)
    | .ok header =>
      if header.allocated then
        match Word.add bytes header.size, Word.increment count with
        | .ok bytes, .ok count => a.liveUsageFrom bound header.next bytes count
        | .error cause, _ | _, .error cause => .error (.panic cause)
      else a.liveUsageFrom bound header.next bytes count

/-- How many bytes, headers included, and how many blocks are allocated. -/
def liveUsage (a : Allocator) : Except Fault (Nat × Nat) :=
  a.liveUsageFrom a.walkBound a.head 0 0

end Allocator

end Confine
