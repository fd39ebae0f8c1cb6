import Confine.Allocator.Request

/-! # Programs that use an allocator

A program sends requests, and remembers which addresses it was given and which parts of the heap it
obtained by moving the break.  A run is a sequence of requests that some policy allows, each of
which may depend on what the program knows at that point.
-/

namespace Confine

/-- A part of a heap region, from one offset up to another. -/
structure Span where
  start : Nat
  stop : Nat
  deriving Repr, DecidableEq

namespace Span

abbrev Has (s : Span) (i : Nat) : Prop :=
  s.start ≤ i ∧ i < s.stop

def Disjoint (s t : Span) : Prop :=
  ∀ i, s.Has i → ¬t.Has i

/-- What is left of a span below a break. -/
def below (s : Span) (brk : Nat) : Span :=
  { s with stop := min s.stop brk }

end Span

namespace Heap

/-- A region that the system has just reserved, at an address and of a size that it gives out. -/
structure Fresh (h : Heap) : Prop where
  reserved : Heap.reserve h.base h.capacity = .ok h
  capacity_le : h.capacity ≤ 2 ^ 32
  base_dvd : 2 ^ 24 ∣ h.base
  le_base : 2 ^ 32 ≤ h.base
  base_le : h.base ≤ 2 ^ 47

end Heap

def Operation.pointer? {P : Type} : Operation P → Option P
  | resize pointer _ | free pointer | usableSize pointer => some pointer
  | allocate _ | zeroAllocate _ _ | allocateAligned _ _ | sbrk _ => none

def Access.stored {P : Type} : Access P → Nat
  | fill _ _ length => length
  | store _ bytes => bytes.size
  | storeWords _ words => 8 * words.length
  | load _ _ => 0

/-- The request stores a byte at the address on behalf of the program. -/
def Request.Writes : Request Nat → Nat → Prop
  | operation _, _ => False
  | access a, address => a.pointer ≤ address ∧ address < a.pointer + a.stored

/-- An allocator, and what the program that uses it has of it. -/
structure Client where
  allocator : Allocator
  /-- The addresses that were returned and have not been released since. -/
  live : List Nat
  /-- The parts of the region that the break was moved over for the program, as far as it has not
  been moved back. -/
  held : List Span
  deriving Repr

namespace Client

def start (heap : Heap) : Client :=
  ⟨.new heap, [], []⟩

/-- The addresses that are live after an answer. -/
def liveAfter (live : List Nat) : Operation Nat → Reply → List Nat
  | .allocate _, .address (some p) => p :: live
  | .zeroAllocate _ _, .address (some p) => p :: live
  | .allocateAligned _ _, .address (some p) => p :: live
  | .resize old _, .address (some p) => p :: live.filter (· ≠ old)
  | .resize old _, .address none => live.filter (· ≠ old)
  | .free old, .done => live.filter (· ≠ old)
  | _, _ => live

/-- The spans that are held after an answer, when the break was moved. -/
def heldAfter (held : List Span) (before after : Nat) : Operation Nat → Reply → List Span
  | .sbrk _, .address _ => (⟨before, after⟩ :: held).map (·.below after)
  | _, _ => held

/-- The program after a request was answered. -/
def serve (s : Client) (request : Request Nat) : Client :=
  let (reply, allocator) := s.allocator.perform request
  match request with
  | .operation op =>
    { allocator
      live := liveAfter s.live op reply
      held := heldAfter s.held s.allocator.heap.brk allocator.heap.brk op reply }
  | .access _ => { s with allocator }

theorem allocator_serve (s : Client) (request : Request Nat) :
    (s.serve request).allocator = (s.allocator.perform request).2 := by
  cases request <;> rfl

def reply (s : Client) (request : Request Nat) : Reply :=
  (s.allocator.perform request).1

/-- What a program may write of the block whose payload starts at an address. -/
def usable (s : Client) (p : Nat) : Span :=
  match (Allocator.usableSize p s.allocator).1 with
  | .ok size => ⟨p - s.allocator.heap.base, p - s.allocator.heap.base + size⟩
  | .error _ => ⟨0, 0⟩

/-- The byte belongs to a live block or to a held span. -/
def Owns (s : Client) (i : Nat) : Prop :=
  (∃ p ∈ s.live, (s.usable p).Has i) ∨ ∃ span ∈ s.held, span.Has i

/-- The program writes to its own bytes only. -/
def OwnWrites (s : Client) (request : Request Nat) : Prop :=
  ∀ address, request.Writes address → ∃ i, address = s.allocator.heap.base + i ∧ s.Owns i

/-- No header can start 32 bytes in front of the address: that is outside of the used heap, or off
the grid of headers. -/
def Stray (s : Client) (p : Nat) : Prop :=
  p < Word.limit ∧ ¬(s.allocator.heap.base + 32 ≤ p ∧
    p < s.allocator.heap.base + s.allocator.heap.brk + 32 ∧ 32 ∣ p - 32 - s.allocator.heap.base)

/-- A program that passes back the null address, live addresses and stray ones only, and writes to
its own bytes only. -/
def Honest (s : Client) (request : Request Nat) : Prop :=
  s.OwnWrites request ∧ ∀ op p, request = .operation op → op.pointer? = some p →
    p = 0 ∨ p ∈ s.live ∨ s.Stray p

/-- The programs that a run leads to when a policy allows every request of it. -/
inductive Reaches (allowed : Client → Request Nat → Prop) (s : Client) : Client → Prop
  | refl : Reaches allowed s s
  | step {t : Client} {request : Request Nat} :
      Reaches allowed s t → allowed t request → Reaches allowed s (t.serve request)

variable {s : Client} {op : Operation Nat}

theorem honest_of_operation
    (pointers : ∀ p, op.pointer? = some p → p = 0 ∨ p ∈ s.live ∨ s.Stray p) :
    s.Honest (.operation op) :=
  ⟨fun _ writes => writes.elim, fun _ p eq => by cases eq; exact pointers p⟩

theorem honest_of_no_pointer (pointerless : op.pointer? = none) : s.Honest (.operation op) :=
  honest_of_operation fun _ pointer => by rw [pointerless] at pointer; cases pointer

def mebibyte : Heap :=
  ⟨2 ^ 32, 2 ^ 20, 0, .zeros (2 ^ 20)⟩

theorem mebibyte_fresh : mebibyte.Fresh :=
  ⟨rfl, by decide, by decide, by decide, by decide⟩

/-- A program that has one block of 256 bytes. -/
def tenant : Client :=
  (start mebibyte).serve (.operation (.allocate 256))

theorem tenant_reached : Reaches Honest (start mebibyte) tenant :=
  .step .refl (honest_of_no_pointer rfl)

theorem tenant_base : tenant.allocator.heap.base = 2 ^ 32 := by decide +kernel

theorem tenant_live : tenant.live = [2 ^ 32 + 32] := by decide +kernel

theorem tenant_usable : tenant.usable (2 ^ 32 + 32) = ⟨32, 288⟩ := by decide +kernel

/-- The program after it stored words in the middle of its block. -/
def writer (words : List Nat) : Client :=
  tenant.serve (.access (.storeWords (2 ^ 32 + 64) words))

theorem tenant_owns {words : List Nat} (short : words.length ≤ 28) :
    tenant.OwnWrites (.access (.storeWords (2 ^ 32 + 64) words)) := by
  rintro address ⟨low, high⟩
  dsimp only [Access.pointer, Access.stored] at low high
  refine ⟨address - 2 ^ 32, by rw [tenant_base]; omega, .inl ⟨2 ^ 32 + 32, ?_, ?_⟩⟩
  · rw [tenant_live]
    exact List.mem_singleton_self _
  · rw [tenant_usable]
    exact ⟨by dsimp only; omega, by dsimp only; omega⟩

theorem writer_reached {words : List Nat} (short : words.length ≤ 28) :
    Reaches Honest (start mebibyte) (writer words) :=
  .step tenant_reached ⟨tenant_owns short, fun op p eq => by cases eq⟩

end Client

end Confine
