import Confine.Text.Hex
import Confine.Word

/-! # Causes of failure

An operation of the heap or of the allocator ends without a result in one of three ways: it reports
an error and has changed nothing, it stops in a panic and leaves what was stored so far, or it
follows a list of blocks that never ends. Each cause is a value here, and its wording is one
function.
-/

namespace Confine

/-- What an allocator reports to its caller. None of these is fatal. -/
inductive AllocError where
  /-- The heap region is exhausted. -/
  | outOfMemory
  /-- The address is not the payload of a live block. -/
  | invalidPointer (address : Nat)
  /-- The alignment is not a power of two. -/
  | invalidAlignment (alignment : Nat)
  deriving Repr, DecidableEq

/-- What stops an operation for good. -/
inductive Panic where
  /-- A sum of two words is not a word, or a count has no successor. -/
  | addOverflow
  /-- A difference of two words is below zero. -/
  | subOverflow
  /-- An offset beyond the end of the heap region was turned into an address. -/
  | offsetBeyondCapacity
  /-- The distance to an aligned payload cannot hold a whole number of headers. -/
  | gapOffGrid
  /-- A block list leads to a header that does not lie in the used part of the heap. -/
  | headerOutOfBounds (offset : Nat)
  /-- The context of the process was entered while it was in use. -/
  | contextInUse
  deriving Repr, DecidableEq

/-- Every way in which an operation can end without a result. -/
inductive Fault where
  | error (cause : AllocError)
  | panic (cause : Panic)
  /-- The links of the block list form a cycle that the operation would follow for ever. -/
  | endless
  deriving Repr, DecidableEq

namespace AllocError

/-- The error as log lines name it. -/
def message : AllocError → String
  | outOfMemory => "OutOfMemory"
  | invalidPointer address => s!"InvalidPointer({address})"
  | invalidAlignment alignment => s!"InvalidAlignment({alignment})"

end AllocError

namespace Panic

/-- The text that a panic reports. -/
def message : Panic → String
  | addOverflow => "attempt to add with overflow"
  | subOverflow => "attempt to subtract with overflow"
  | offsetBeyondCapacity => "assertion failed: offset <= self.capacity"
  | gapOffGrid => "assertion failed: gap % HEADER_SIZE == 0"
  | headerOutOfBounds offset => s!"Heap block header at offset {Text.hex offset} is out of bounds"
  | contextInUse => "Re-entrant access to the sandbox context"

end Panic

namespace Word

/-- The sum of two words; a sum that is no word is a panic. -/
def add (a b : Nat) : Except Panic Nat :=
  match add? a b with
  | some sum => .ok sum
  | none => .error .addOverflow

/-- The successor of a count; one that is no count is a panic. -/
def increment (count : Nat) : Except Panic Nat :=
  if count + 1 < countLimit then .ok (count + 1) else .error .addOverflow

/-- The difference of two words; a negative one is a panic. -/
def sub (a b : Nat) : Except Panic Nat :=
  if b ≤ a then .ok (a - b) else .error .subOverflow

/-- The least multiple of `unit` that is at least `n`; one that is no word is a panic. -/
def nextMultiple (n unit : Nat) : Except Panic Nat :=
  match roundUp? n unit with
  | some multiple => .ok multiple
  | none => .error .addOverflow

theorem add_eq_ok_iff {a b c : Nat} : add a b = .ok c ↔ a + b = c ∧ c < limit := by
  rw [← add?_eq_some_iff]
  unfold add
  split <;> simp_all

theorem add_eq_ite (a b : Nat) :
    add a b = if limit ≤ a + b then .error .addOverflow else .ok (a + b) := by
  by_cases word : a + b < limit
  · rw [if_neg (Nat.not_le_of_lt word), add_eq_ok_iff.mpr ⟨rfl, word⟩]
  · simp only [add, add?, if_neg word, if_pos (Nat.le_of_not_lt word)]

theorem sub_eq_ok_iff {a b c : Nat} : sub a b = .ok c ↔ b ≤ a ∧ a - b = c := by
  unfold sub
  by_cases h : b ≤ a
  · simp [h]
  · simp [h]

end Word

end Confine
