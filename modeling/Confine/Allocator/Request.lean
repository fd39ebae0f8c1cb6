import Confine.Allocator.Operations
import Confine.Operand

/-! # Requests to an allocator

A request is an operation of the allocator or an access of the program to its memory. `perform`
answers one of them, and `Session.run` a script of them, in which a request may name the results of
earlier ones.
-/

namespace Confine

/-- An operation of the allocator, with pointers of type `P`. -/
inductive Operation (P : Type) where
  | allocate (size : Nat)
  | zeroAllocate (count size : Nat)
  | resize (pointer : P) (size : Nat)
  | allocateAligned (alignment size : Nat)
  | sbrk (increment : Int)
  | free (pointer : P)
  | usableSize (pointer : P)
  deriving Repr

/-- An access of the program to its memory, with pointers of type `P`. -/
inductive Access (P : Type) where
  /-- Store `length` copies of one byte. -/
  | fill (pointer : P) (byte : UInt8) (length : Nat)
  | store (pointer : P) (bytes : Array UInt8)
  /-- Store 64-bit little-endian words. -/
  | storeWords (pointer : P) (words : List Nat)
  | load (pointer : P) (length : Nat)
  deriving Repr

/-- What a program asks for. -/
inductive Request (P : Type) where
  | operation (op : Operation P)
  | access (access : Access P)
  deriving Repr

/-- The answer to a request. -/
inductive Reply where
  /-- A pointer; `none` is the null pointer. -/
  | address (address : Option Nat)
  | done
  | size (size : Nat)
  | bytes (bytes : List UInt8)
  /-- The request was to access memory through the null pointer, and was not carried out. -/
  | skipped
  | failed (fault : Fault)
  deriving Repr, DecidableEq

namespace Operation

/-- The operation with its pointers replaced. -/
def map {P Q : Type} (f : P → Q) : Operation P → Operation Q
  | allocate size => allocate size
  | zeroAllocate count size => zeroAllocate count size
  | resize pointer size => resize (f pointer) size
  | allocateAligned alignment size => allocateAligned alignment size
  | sbrk increment => sbrk increment
  | free pointer => free (f pointer)
  | usableSize pointer => usableSize (f pointer)

/-- The operation as an action of the allocator. -/
def action : Operation Nat → Allocator.Action Reply
  | allocate size => return .address (← Allocator.allocate size)
  | zeroAllocate count size => return .address (← Allocator.zeroAllocate count size)
  | resize pointer size => return .address (← Allocator.resize pointer size)
  | allocateAligned alignment size => return .address (← Allocator.allocateAligned alignment size)
  | sbrk increment => return .address (← Allocator.sbrk increment)
  | free pointer => do
    Allocator.free pointer
    return .done
  | usableSize pointer => return .size (← Allocator.usableSize pointer)

end Operation

namespace Access

/-- The access with its pointer replaced. -/
def map {P Q : Type} (f : P → Q) : Access P → Access Q
  | fill pointer byte length => fill (f pointer) byte length
  | store pointer bytes => store (f pointer) bytes
  | storeWords pointer words => storeWords (f pointer) words
  | load pointer length => load (f pointer) length

/-- The pointer through which memory is accessed. -/
def pointer {P : Type} : Access P → P
  | fill pointer _ _ | store pointer _ | storeWords pointer _ | load pointer _ => pointer

/-- Carry out an access to a memory that starts at the address `base`. -/
def carryOut (base : Nat) (memory : Memory) : Access Nat → Reply × Memory
  | fill pointer byte length =>
    (.done, memory.fill (Word.subWrapping pointer base) length byte)
  | store pointer bytes => (.done, memory.store (Word.subWrapping pointer base) bytes)
  | storeWords pointer words =>
    (.done, memory.storeNumbers (Word.subWrapping pointer base) 8 words)
  | load pointer length => (.bytes (memory.load (Word.subWrapping pointer base) length), memory)

end Access

namespace Request

/-- The request with its pointers replaced. -/
def map {P Q : Type} (f : P → Q) : Request P → Request Q
  | operation op => operation (op.map f)
  | access a => access (a.map f)

end Request

namespace Reply

/-- The address that later requests know the step by. -/
def address? : Reply → Option Nat
  | address a => a
  | _ => none

/-- Whether the request stopped for good. -/
def isPanic : Reply → Bool
  | failed (.error _) => false
  | failed _ => true
  | _ => false

end Reply

namespace Allocator

/-- Answer one request. -/
def perform (a : Allocator) : Request Nat → Reply × Allocator
  | .operation op =>
    match op.action a with
    | (.ok reply, a) => (reply, a)
    | (.error fault, a) => (.failed fault, a)
  | .access access =>
    if access.pointer = 0 then (.skipped, a)
    else
      let (reply, memory) := access.carryOut a.heap.base a.heap.memory
      (reply, { a with heap.memory := memory })

/-- A script in progress: the allocator, and the results that later steps can name. -/
structure Session where
  allocator : Allocator
  results : StepResults
  /-- The number of the next step. -/
  step : Nat

namespace Session

/-- A script before its first step. -/
def start (a : Allocator) : Session :=
  ⟨a, [], 0⟩

/-- Answer the next request of a script. -/
def advance (s : Session) (request : Request Operand) : Reply × Session :=
  let resolved := request.map (·.resolve s.allocator.heap.base s.results)
  let (reply, allocator) := s.allocator.perform resolved
  let results :=
    match reply.address? with
    | some address => (s.step, address) :: s.results
    | none => s.results
  (reply, { allocator, results, step := s.step + 1 })

/-- Answer the requests of a script one after another, each answer with the allocator after it. A
panic ends the script. -/
def run (s : Session) : List (Request Operand) → List (Reply × Allocator)
  | [] => []
  | request :: rest =>
    let (reply, next) := s.advance request
    (reply, next.allocator) :: if reply.isPanic then [] else next.run rest

end Session

end Allocator

end Confine
