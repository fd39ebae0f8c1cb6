import Confine.Errno
import Confine.Fault
import Confine.Memory

/-! # The heap region

One region of memory, reserved once, and the break: the number of its bytes that are in use. Growing
the heap only moves the break. Numbers are read and written through cells, which must be aligned and
lie below the break. The bytes above the break keep what they held when the break was above them.
-/

namespace Confine

/-- How a value lies in memory: `lanes` little-endian numbers of `width` bytes each. The value must
start at a multiple of `width`. -/
structure Cell where
  lanes : Nat
  width : Nat
  deriving Repr, DecidableEq

namespace Cell

/-- A byte. -/
def bits8 : Cell := ⟨1, 1⟩
/-- A 16-bit number. -/
def bits16 : Cell := ⟨1, 2⟩
/-- A 32-bit number. -/
def bits32 : Cell := ⟨1, 4⟩
/-- A machine word. -/
def bits64 : Cell := ⟨1, 8⟩
/-- Four machine words, as a block header has them. -/
def fourWords : Cell := ⟨4, 8⟩

/-- The number of bytes of a value. -/
def size (c : Cell) : Nat :=
  c.lanes * c.width

end Cell

/-- A heap region and its break. The region starts at the address `base`. -/
structure Heap where
  base : Nat
  capacity : Nat
  /-- The break: how many bytes of the region are in use. -/
  brk : Nat
  memory : Memory
  deriving Repr

namespace Heap

/-- Reserve `capacity` zero bytes at `base`, none of them in use. The system refuses a region of no
bytes, and one larger than the address space. -/
def reserve (base capacity : Nat) : Except Errno Heap :=
  if capacity = 0 then .error .invalidArgument
  else if 2 ^ 62 ≤ capacity then .error .outOfMemory
  else .ok ⟨base, capacity, 0, .zeros capacity⟩

/-- Move the break by a signed distance and return where it was. It stays within the region. -/
def extend (h : Heap) (increment : Int) : Except AllocError (Nat × Heap) :=
  let moved := (h.brk : Int) + increment
  if 0 ≤ moved ∧ moved ≤ h.capacity then .ok (h.brk, { h with brk := moved.toNat })
  else .error .outOfMemory

/-- The address of an offset. The end of the region is an offset too. -/
def address (h : Heap) (offset : Nat) : Except Panic Nat :=
  if offset ≤ h.capacity then .ok (h.base + offset) else .error .offsetBeyondCapacity

/-- The offset of an address in the used part of the region. -/
def offsetOf? (h : Heap) (address : Nat) : Option Nat :=
  if h.base ≤ address ∧ address - h.base < h.brk then some (address - h.base) else none

/-- Whether a value at `offset` is aligned and lies below the break. An address that is no word is a
panic, unless the offset of the end is none either. -/
def admits (h : Heap) (c : Cell) (offset : Nat) : Except Panic Bool := do
  match Word.add? offset c.size with
  | none => return false
  | some stop =>
    let address ← Word.add h.base offset
    return stop ≤ h.brk ∧ address % c.width = 0

/-- Whether a value at `offset` can be accessed. If so, its address is taken, and an offset beyond
the end of the region is a panic. -/
def reaches (h : Heap) (c : Cell) (offset : Nat) : Except Panic Bool := do
  if ← h.admits c offset then
    let _ ← h.address offset
    return true
  else return false

/-- The numbers of a value that lies at `offset`. -/
def lanesAt (h : Heap) (c : Cell) (offset : Nat) : List Nat :=
  (List.range c.lanes).map fun i => h.memory.number (offset + i * c.width) c.width

/-- Read a value. There is none where a cell does not fit. -/
def read (h : Heap) (c : Cell) (offset : Nat) : Except Panic (Option (List Nat)) := do
  if ← h.reaches c offset then return some (h.lanesAt c offset) else return none

/-- Write a value. Nothing happens where a cell does not fit. -/
def write (h : Heap) (c : Cell) (offset : Nat) (values : List Nat) :
    Except Panic (Option Heap) := do
  if ← h.reaches c offset then
    return some { h with memory := h.memory.storeNumbers offset c.width (values.take c.lanes) }
  else return none

end Heap

end Confine
