import Confine.Proofs.Client.BlockList
import Confine.Proofs.Layout.Placing

/-! # First fit

An allocation of an honest program takes the first free block that is large enough, or a new one
behind the break, and fails only when there is neither.  Nothing else in the list changes.
-/

namespace Confine

open Block Layout Allocator

namespace Allocator

variable {a : Allocator} {l : Layout}

/-- The layout of a heap whose list is known. -/
def layout (a : Allocator) (bs : List Block) : Layout :=
  ⟨a.heap.base, a.heap.capacity, a.heap.brk, bs, a.growths⟩

theorem Realizes.layout_eq (h : Realizes a l) : a.layout l.blocks = l := by
  rw [layout, h.base, h.capacity, h.brk, h.growths]

theorem perform_of_error {op : Operation Nat} {fault : Fault} {a' : Allocator}
    (h : op.action a = (.error fault, a')) : a.perform (.operation op) = (.failed fault, a') := by
  simp only [perform, h]

end Allocator

namespace Client

variable {s : Client} {l : Layout} {heap : Heap} {size required : Nat}

/-- An allocation of `size` bytes needs the least multiple of 32 that holds them and a header.  It
fails without a change when the heap is exhausted for that many bytes, and otherwise returns the
payload of the block that is chosen for them, the only one in the list that changes. -/
structure FirstFit (s : Client) (size : Nat) (bs : List Block) (required : Nat) : Prop where
  walk : s.allocator.WellFormed bs
  least : IsLeast {m | 32 ∣ m ∧ size + 32 ≤ m} required
  fails : (s.allocator.layout bs).Exhausted required →
    s.allocator.perform (.operation (.allocate size)) =
      (.failed (.error .outOfMemory), s.allocator)
  serves : ¬(s.allocator.layout bs).Exhausted required → ∃ taken pre b rest,
    (s.allocator.layout bs).Chooses required taken pre b rest ∧
    s.reply (.operation (.allocate size)) =
      .address (some (s.allocator.heap.base + (b.offset + 32))) ∧
    32 ∣ s.allocator.heap.base + (b.offset + 32) ∧
    (s.serve (.operation (.allocate size))).allocator.WellFormed
      (pre ++ (b.occupied required ++ rest)) ∧
    (s.serve (.operation (.allocate size))).allocator.heap.brk = taken.brk

/-- The operation is answered with a failure. -/
def Fails (s : Client) (op : Operation Nat) : Prop :=
  ∃ fault, s.reply (.operation op) = .failed fault

theorem Sound.exhausted (h : Sound s l) (full : l.allocate size = none) :
    s.allocator.perform (.operation (.allocate size)) =
      (.failed (.error .outOfMemory), s.allocator) := by
  have run := allocate_run h.realizes h.books.apart size
  rw [full] at run
  exact perform_of_error (bind_error run)

/-- A program is told whether there is room for an allocation. -/
theorem Sound.fails_allocate_iff (h : Sound s l) :
    s.Fails (.allocate size) ↔ l.allocate size = none := by
  have replied := (h.allocate size).replied
  simp only [Layout.answer] at replied
  rw [Fails, replied]
  cases l.allocate size <;> simp [granted, Reply.shift]

/-- Allocation is first fit in the heap of an honest program. -/
theorem firstFit_of_honest (fresh : heap.Fresh) (run : Reaches Honest (start heap) s)
    (size : Nat) : ∃ bs required, s.FirstFit size bs required := by
  obtain ⟨l, sound⟩ := sound_of_honest fresh run
  have ascending := sound.realizes.ascending
  have least := Word.isLeast_roundUp (show 0 < 32 by decide) (size + 32)
  refine ⟨l.blocks, _, sound.realizes.wellFormed sound.books.apart, least, ?_, ?_⟩
  · rw [sound.realizes.layout_eq, ← allocate_eq_none_iff least]
    exact sound.exhausted
  · rw [sound.realizes.layout_eq, ← allocate_eq_none_iff least]
    intro room
    obtain ⟨⟨o, l'⟩, served⟩ := Option.ne_none_iff_exists'.mp room
    obtain ⟨taken, pre, b, rest, chooses, rfl, rfl⟩ := exists_chooses least ascending served
    have advance := sound.allocate size
    simp only [Layout.answer, served, granted] at advance
    have after := advance.sound
    have listed := chooses.blocks_taken sound.books.apart ascending least.1.1
      (Nat.le_of_add_left_le least.1.2)
    obtain ⟨-, grid, -⟩ :=
      (chooses.ascending ascending least.1.1 (Nat.le_of_add_left_le least.1.2)).mem chooses.listed
    have base := sound.realizes.placed.base_dvd
    refine ⟨taken, pre, b, rest, chooses, ?_, by omega, ?_, after.realizes.brk⟩
    · rw [advance.replied, sound.realizes.base]
      rfl
    · rw [← listed]
      exact after.realizes.wellFormed after.books.apart

/-- The block is appended behind a break that is off the grid. -/
theorem firstFit_off_grid :
    ∃ bs required, (tenant.serve (.operation (.sbrk 10))).FirstFit 70000 bs required :=
  firstFit_of_honest mebibyte_fresh (.step tenant_reached (honest_of_no_pointer rfl)) 70000

end Client

end Confine
