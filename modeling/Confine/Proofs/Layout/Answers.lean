import Confine.Proofs.Client
import Confine.Proofs.Layout.Operations

/-! # What an operation answers

An operation whose pointer is null or the payload of an allocated block is answered by the layout
alone: neither the bytes of the heap nor, but for an alignment, its address have a part in it.
Pointers and addresses are offsets here, and `Reply.shift` puts them where the heap is.
-/

namespace Confine

namespace Reply

/-- The answer of a heap that starts at an address, from one whose addresses are offsets. -/
def shift (base : Nat) : Reply → Reply
  | address (some o) => address (some (base + o))
  | reply => reply

theorem isPanic_shift (base : Nat) (reply : Reply) :
    (reply.shift base).isPanic = reply.isPanic := by
  cases reply with
  | address result => cases result <;> rfl
  | _ => rfl

end Reply

theorem Operation.exists_map {P Q : Type} {f : Q → P} {known : Q → Prop} (op : Operation P)
    (h : ∀ p, op.pointer? = some p → ∃ q, known q ∧ f q = p) :
    ∃ named : Operation Q, op = named.map f ∧ ∀ q, named.pointer? = some q → known q := by
  cases op with
  | resize p size =>
      obtain ⟨q, known, rfl⟩ := h p rfl
      exact ⟨.resize q size, rfl, fun _ same => Option.some.inj same ▸ known⟩
  | free p =>
      obtain ⟨q, known, rfl⟩ := h p rfl
      exact ⟨.free q, rfl, fun _ same => Option.some.inj same ▸ known⟩
  | usableSize p =>
      obtain ⟨q, known, rfl⟩ := h p rfl
      exact ⟨.usableSize q, rfl, fun _ same => Option.some.inj same ▸ known⟩
  | allocate size => exact ⟨.allocate size, rfl, fun _ none => nomatch none⟩
  | zeroAllocate count size => exact ⟨.zeroAllocate count size, rfl, fun _ none => nomatch none⟩
  | allocateAligned alignment size =>
      exact ⟨.allocateAligned alignment size, rfl, fun _ none => nomatch none⟩
  | sbrk increment => exact ⟨.sbrk increment, rfl, fun _ none => nomatch none⟩

namespace Layout

variable {l : Layout} {op : Operation Nat} {result : Reply × Layout}

/-- The address of an offset; nothing is at the null address. -/
def pointer (l : Layout) : Option Nat → Nat
  | none => 0
  | some o => l.base + o

/-- The pointer is null, or the payload of an allocated block. -/
def Names (l : Layout) : Option Nat → Prop
  | none => True
  | some o => ∃ b ∈ l.blocks, b.allocated = true ∧ b.offset + 32 = o

def granted (l : Layout) : Option (Nat × Layout) → Reply × Layout
  | none => (.failed (.error .outOfMemory), l)
  | some (o, l') => (.address (some (o + 32)), l')

def payloadSize (l : Layout) (offset : Nat) : Nat :=
  ((l.blocks.find? (·.offset = offset)).map (·.size - 32)).getD 0

/-- The answer to an operation, and the layout after it. -/
def answer (l : Layout) : Operation (Option Nat) → Reply × Layout
  | .allocate size => l.granted (l.allocate size)
  | .zeroAllocate count size => l.granted (l.allocate (Word.mulWrapping count size))
  | .allocateAligned alignment size =>
    if !Word.isPowerOfTwo alignment then (.failed (.error (.invalidAlignment alignment)), l)
    else if alignment ≤ 32 then l.granted (l.allocate size)
    else l.granted (l.allocateAligned alignment size)
  | .resize none size => l.granted (l.allocate size)
  | .resize (some o) size =>
    if size = 0 then (.address none, l.free (o - 32))
    else l.granted ((l.allocate size).map fun (n, taken) => (n, taken.free (o - 32)))
  | .free none => (.done, l)
  | .free (some o) => (.done, l.free (o - 32))
  | .usableSize none => (.failed (.error (.invalidPointer 0)), l)
  | .usableSize (some o) => (.size (l.payloadSize (o - 32)), l)
  | .sbrk increment =>
    match l.moveBreak increment with
    | none => (.failed (.error .outOfMemory), l)
    | some moved => (.address (some l.brk), moved)

/-- The answer to an operation with an address: that of the layout if the address is null or a
payload, and a complaint about it otherwise. -/
def Answers (l : Layout) (op : Operation Nat) (result : Reply × Layout) : Prop :=
  (∃ named : Operation (Option Nat), op = named.map l.pointer ∧
    (∀ q, named.pointer? = some q → l.Names q) ∧ result = l.answer named) ∨
  ∃ p, op.pointer? = some p ∧ result = (.failed (.error (.invalidPointer p)), l)

theorem granted_isPanic (l : Layout) (attempt : Option (Nat × Layout)) :
    (l.granted attempt).1.isPanic = false := by
  cases attempt <;> rfl

theorem answer_isPanic (l : Layout) (op : Operation (Option Nat)) :
    (l.answer op).1.isPanic = false := by
  cases op with
  | allocate size => exact l.granted_isPanic _
  | zeroAllocate count size => exact l.granted_isPanic _
  | resize pointer size =>
      cases pointer with
      | none => exact l.granted_isPanic _
      | some o =>
          simp only [answer]
          split
          · rfl
          · exact l.granted_isPanic _
  | allocateAligned alignment size =>
      simp only [answer]
      split
      · rfl
      · split <;> exact l.granted_isPanic _
  | sbrk increment =>
      simp only [answer]
      split <;> rfl
  | free pointer => cases pointer <;> rfl
  | usableSize pointer => cases pointer <;> rfl

theorem Answers.isPanic (h : l.Answers op result) : result.1.isPanic = false := by
  rcases h with ⟨named, -, -, rfl⟩ | ⟨p, -, rfl⟩
  · exact l.answer_isPanic named
  · rfl

end Layout

end Confine
