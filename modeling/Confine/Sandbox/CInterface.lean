import Confine.Sandbox.Provision

/-! # The allocation functions of C

The functions that C programs allocate with, as images of the allocator's operations. A failure is a
null pointer or a code, and an error number where the interface sets one. A pointer that cannot be
freed is reported on standard error whatever the verbosity, because nobody else would notice.
-/

namespace Confine

/-- A call of an allocation function, with pointers of type `P`. -/
inductive CCall (P : Type) where
  | malloc (size : Nat)
  | calloc (count size : Nat)
  | realloc (pointer : P) (size : Nat)
  | alignedAlloc (alignment size : Nat)
  | memalign (alignment size : Nat)
  | posixMemalign (alignment size : Nat)
  | sbrk (increment : Int)
  | free (pointer : P)
  | mallocUsableSize (pointer : P)
  deriving Repr

namespace CReply

/-- A pointer, with no error. -/
def pointer (address : Nat) : CReply :=
  ⟨.pointer address, none⟩

/-- The null pointer and an error number. -/
def failure (errno : Errno) : CReply :=
  ⟨.pointer 0, some errno⟩

end CReply

namespace CCall

/-- The call with its pointers replaced. -/
def map {P Q : Type} (f : P → Q) : CCall P → CCall Q
  | malloc size => malloc size
  | calloc count size => calloc count size
  | realloc pointer size => realloc (f pointer) size
  | alignedAlloc alignment size => alignedAlloc alignment size
  | memalign alignment size => memalign alignment size
  | posixMemalign alignment size => posixMemalign alignment size
  | sbrk increment => sbrk increment
  | free pointer => free (f pointer)
  | mallocUsableSize pointer => mallocUsableSize (f pointer)

variable (m : Machine)

/-- The result of an allocation as C callers expect it. -/
def ofAllocation : Except AllocError Nat → Run CReply
  | .ok address => return .pointer address
  | .error cause => do
    Sandbox.log .debug s!"Allocation failed: {cause.message}"
    return .failure .outOfMemory

/-- The null pointer is the result of freeing, of a failure, and of a pointer that cannot be moved.
-/
def runRealloc (pointer size : Nat) : Run CReply := do
  match ← Sandbox.onAllocator m (Allocator.resize pointer size) with
  | .ok address => return .pointer (address.getD 0)
  | .error (.invalidPointer _) =>
    Sandbox.writeErrors [s!"Invalid realloc at {Text.hex pointer}"]
    return .pointer 0
  | .error cause => ofAllocation (.error cause)

/-- An alignment that is no power of two is an invalid argument. -/
def runAlignedAlloc (alignment size : Nat) : Run CReply := do
  match ← Sandbox.onAllocator m (Allocator.allocateAligned alignment size) with
  | .error (.invalidAlignment _) => return .failure .invalidArgument
  | result => ofAllocation result

/-- This function has its own idea of an alignment, and returns its error number instead of setting
it. -/
def runPosixMemalign (alignment size : Nat) : Run CReply := do
  let refused (errno : Errno) : CReply := ⟨.code errno.code none, none⟩
  if !Word.isPowerOfTwo alignment || alignment % 8 ≠ 0 then
    return refused .invalidArgument
  match ← Sandbox.onAllocator m (Allocator.allocateAligned alignment size) with
  | .ok address => return ⟨.code 0 (some address), none⟩
  | .error (.invalidAlignment _) => return refused .invalidArgument
  | .error _ => return refused .outOfMemory

/-- A break that cannot be moved is the largest word, and memory is exhausted. -/
def runSbrk (increment : Int) : Run CReply := do
  match ← Sandbox.onAllocator m (Allocator.sbrk increment) with
  | .ok address => return .pointer address
  | .error _ => return ⟨.pointer Word.max, some .outOfMemory⟩

/-- A pointer that cannot be freed is reported, and nothing else happens. -/
def runFree (pointer : Nat) : Run CReply := do
  match ← Sandbox.onAllocator m (Allocator.free pointer) with
  | .ok _ => pure ()
  | .error _ => Sandbox.writeErrors [s!"Invalid free at {Text.hex pointer}"]
  return ⟨.void, none⟩

/-- A pointer to no live block has no usable bytes. -/
def runUsableSize (pointer : Nat) : Run CReply := do
  if pointer = 0 then return ⟨.size 0, none⟩
  match ← Sandbox.onAllocator m (Allocator.usableSize pointer) with
  | .ok size => return ⟨.size size, none⟩
  | .error _ => return ⟨.size 0, none⟩

/-- Carry out a call. -/
def run : CCall Nat → Run CReply
  | malloc size => do ofAllocation (← Sandbox.onAllocator m (Allocator.allocate size))
  | calloc count size => do
    ofAllocation (← Sandbox.onAllocator m (Allocator.zeroAllocate count size))
  | realloc pointer size => runRealloc m pointer size
  | alignedAlloc alignment size => runAlignedAlloc m alignment size
  | memalign alignment size => runAlignedAlloc m alignment size
  | posixMemalign alignment size => runPosixMemalign m alignment size
  | sbrk increment => runSbrk m increment
  | free pointer => runFree m pointer
  | mallocUsableSize pointer => runUsableSize m pointer

end CCall

end Confine
