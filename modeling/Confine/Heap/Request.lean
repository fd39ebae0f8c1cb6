import Confine.Heap
import Confine.Operand

/-! # Requests to a heap region

The operations of a heap as values, with their answers. A request that fails leaves the heap alone,
and the next one is answered all the same.
-/

namespace Confine.Heap

/-- What can be asked of a heap. -/
inductive Request where
  | extend (increment : Int)
  | capacity
  | address (offset : Nat)
  | offsetOf (pointer : Operand)
  | read (cell : Cell) (offset : Nat)
  | write (cell : Cell) (offset : Nat) (values : List Nat)
  deriving Repr

/-- The answer to a request. -/
inductive Reply where
  /-- The break before it was moved. -/
  | previous (brk : Nat)
  | capacity (size : Nat)
  | address (address : Nat)
  | offset (offset : Option Nat)
  /-- The numbers read, if the cell fits. -/
  | value (values : Option (List Nat))
  /-- Whether the value was stored. -/
  | stored (stored : Bool)
  | failed (fault : Fault)
  deriving Repr

/-- Answer one request, knowing the addresses that earlier ones returned. -/
def perform (h : Heap) (results : StepResults) : Request → Reply × Heap
  | .extend increment =>
    match h.extend increment with
    | .ok (previous, h) => (.previous previous, h)
    | .error cause => (.failed (.error cause), h)
  | .capacity => (.capacity h.capacity, h)
  | .address offset =>
    match h.address offset with
    | .ok address => (.address address, h)
    | .error cause => (.failed (.panic cause), h)
  | .offsetOf pointer => (.offset (h.offsetOf? (pointer.resolve h.base results)), h)
  | .read cell offset =>
    match h.read cell offset with
    | .ok values => (.value values, h)
    | .error cause => (.failed (.panic cause), h)
  | .write cell offset values =>
    match h.write cell offset values with
    | .ok (some h) => (.stored true, h)
    | .ok none => (.stored false, h)
    | .error cause => (.failed (.panic cause), h)

/-- Answer requests one after another, each answer with the heap after it. -/
def run (h : Heap) (requests : List Request) : List (Reply × Heap) :=
  go h 0 [] requests
where
  go (h : Heap) (step : Nat) (results : StepResults) : List Request → List (Reply × Heap)
    | [] => []
    | request :: rest =>
      let (reply, next) := h.perform results request
      let results :=
        match reply with
        | .address address => (step, address) :: results
        | _ => results
      (reply, next) :: go next (step + 1) results rest

end Confine.Heap
