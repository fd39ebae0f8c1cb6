import Confine.Sandbox.State

/-! # The heap of a process

The heap is reserved once, at the first need of it or at the start of the program, whichever comes
first, and from then on every part of the process works with the same allocator.
-/

namespace Confine.Sandbox

variable (m : Machine)

/-- The heap region that the host reserves, or why it does not. -/
def reservation (size : Nat) : Except Errno Heap :=
  match m.host.heapRefusal with
  | some cause => .error cause
  | none => Heap.reserve m.heapBase size

/-- Reserve the heap of the process, or end it. -/
def reserveHeap : Run Allocator := do
  let size := m.environment.requestedHeapSize
  emit (.reserveHeap size)
  match reservation m size with
  | .error cause => fatal (.heapReservation cause)
  | .ok heap =>
    log .debug s!"Reserved {size} bytes of heap at {Text.hex heap.base}"
    let a := Allocator.new heap
    modifyContext ({ · with allocator := some a })
    return a

/-- The allocator of the process. The heap is reserved if it was not yet. -/
def provision : Run Allocator := do
  match (← get).context.allocator with
  | some a => return a
  | none =>
    match m.environment.heapSizeWarning? with
    | some warning => log .warn warning
    | none => pure ()
    reserveHeap m

/-- What the log says about a block appended at the break. -/
def growthMessage (growth : Growth) : String :=
  s!"Heap extended by {growth.size} bytes at offset {Text.hex growth.offset}"

/-- Carry out an operation of the allocator. An error is a result, a panic is not. -/
def onAllocator {α : Type} (action : Allocator.Action α) : Run (Except AllocError α) := do
  let before ← provision m
  let (outcome, after) := action before
  modifyContext ({ · with allocator := some after })
  let appended := after.growths.take (after.growths.length - before.growths.length)
  appended.reverse.forM fun growth => log .trace (growthMessage growth)
  match outcome with
  | .ok value => return .ok value
  | .error (.error cause) => return .error cause
  | .error (.panic cause) => panic m cause
  | .error .endless => throw .never

/-- Log how much of the heap is in use, if anyone listens and there is a heap. -/
def logHeapUsage : Run Unit := do
  let p ← get
  if !p.logger.enabled .debug then return
  match p.context.allocator with
  | none => return
  | some a =>
    match a.liveUsage with
    | .error (.panic cause) => panic m cause
    | .error _ => throw .never
    | .ok (bytes, count) =>
      log .debug (s!"Heap break at {a.heap.brk} of {a.heap.capacity} bytes, " ++
        s!"{bytes} bytes in {count} live block(s)")

end Confine.Sandbox
