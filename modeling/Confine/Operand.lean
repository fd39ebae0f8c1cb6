import Confine.Word

/-! # How a request names a pointer

A script of requests is written before the heap has an address, so it names its pointers by where
they come from. `Operand.resolve` turns such a name into an address once the heap's base and the
results so far are known. Zero is the null address.
-/

namespace Confine

/-- The address that each earlier step returned; a step that is not listed returned none. -/
abbrev StepResults := List (Nat × Nat)

/-- The name of a pointer. -/
inductive Operand where
  | null
  /-- The address that a step returned, moved by `delta`; null if it returned none. -/
  | result (step : Nat) (delta : Int)
  /-- An address relative to the base of the heap. -/
  | fromBase (offset : Int)
  | absolute (address : Nat)
  deriving Repr, DecidableEq

namespace Operand

/-- The address that a pointer stands for. -/
def resolve (base : Nat) (results : StepResults) : Operand → Nat
  | null => 0
  | result step delta =>
    match results.lookup step with
    | some address => Word.ofInt (address + delta)
    | none => 0
  | fromBase offset => Word.ofInt (base + offset)
  | absolute address => address

end Operand

end Confine
