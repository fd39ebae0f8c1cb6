import Confine.Proofs.Causes
import Confine.Proofs.Client.FirstFit

/-! # Aligned allocation

A block whose payload has to start at a multiple of a large alignment is cut out of the block that
an allocation of so many bytes more would take.  Its front and its back are given back at once, so
that a program pays for no more than the payload, its header and one more.
-/

namespace Confine

open Block Layout Allocator

namespace Layout

variable {l : Layout} {size alignment : Nat}

theorem answer_allocateAligned (power : Word.isPowerOfTwo alignment = true)
    (wide : 32 < alignment) : l.answer (.allocateAligned alignment size) =
      l.granted (l.allocateAligned alignment size) := by
  simp only [answer, power, Bool.not_true, Bool.false_eq_true, if_false,
    if_neg (Nat.not_le.mpr wide)]

end Layout

namespace Client

variable {s t : Client} {l : Layout} {heap : Heap} {alignment size p : Nat} {b n : Block}
  {bs pre rest : List Block}

/-- There is no room for so many bytes and the alignment. -/
def Cramped (s : Client) (alignment size : Nat) : Prop :=
  Word.limit ≤ size + alignment ∨ s.Fails (.allocate (size + alignment))

/-- A block for a payload at the first multiple of the alignment was cut out of a free one, of which
everything else is free again. -/
structure Carves (t : Client) (alignment size : Nat) (pre : List Block) (b n : Block)
    (rest : List Block) (p : Nat) : Prop where
  address : p = t.allocator.heap.base + (n.offset + 32)
  aligned : IsLeast {m | alignment ∣ m ∧ t.allocator.heap.base + (b.offset + 32) ≤ m} p
  live : p ∈ t.live
  usable : ∃ u, Allocator.usableSize p t.allocator = (.ok u, t.allocator) ∧
    size ≤ u ∧ u ≤ size + 63
  within : b.offset ≤ n.offset ∧ n.stop ≤ b.stop
  walk : t.allocator.WellFormed (carved pre b n rest)
  returned : ∀ i, b.Covers i → ¬n.Covers i → ∃ f ∈ carved pre b n rest,
    f.allocated = false ∧ f.Covers i

/-- An aligned allocation reports an alignment that is not a power of two, and does what another one
does if payloads have the alignment anyway.  Otherwise it fails without a change when there is no
room for the alignment more bytes, and else returns a payload in the block that is chosen for so
many. -/
structure Aligns (s : Client) (alignment size : Nat) (bs : List Block) : Prop where
  walk : s.allocator.WellFormed bs
  invalid : ¬alignment.isPowerOfTwo →
    s.allocator.perform (.operation (.allocateAligned alignment size)) =
      (.failed (.error (.invalidAlignment alignment)), s.allocator)
  narrow : alignment.isPowerOfTwo → alignment ≤ 32 →
    s.allocator.perform (.operation (.allocateAligned alignment size)) =
      s.allocator.perform (.operation (.allocate size))
  fails : alignment.isPowerOfTwo → 32 < alignment → s.Cramped alignment size →
    s.allocator.perform (.operation (.allocateAligned alignment size)) =
      (.failed (.error .outOfMemory), s.allocator)
  serves : alignment.isPowerOfTwo → 32 < alignment → ¬s.Cramped alignment size →
    ∃ padded taken pre b n rest p, IsLeast {m | 32 ∣ m ∧ size + alignment + 32 ≤ m} padded ∧
      (s.allocator.layout bs).Chooses padded taken pre b rest ∧
      s.reply (.operation (.allocateAligned alignment size)) = .address (some p) ∧
      (s.serve (.operation (.allocateAligned alignment size))).allocator.heap.brk = taken.brk ∧
      (s.serve (.operation (.allocateAligned alignment size))).Carves alignment size pre b n rest p

namespace Sound

variable (h : Sound s l)

include h

theorem cramped_iff :
    s.Cramped alignment size ↔ l.allocateAligned alignment size = none := by
  rw [Cramped, h.fails_allocate_iff, allocateAligned_eq_none_iff]

theorem crowded (power : Word.isPowerOfTwo alignment = true) (wide : 32 < alignment)
    (full : l.allocateAligned alignment size = none) :
    s.allocator.perform (.operation (.allocateAligned alignment size)) =
      (.failed (.error .outOfMemory), s.allocator) := by
  have run := allocateAligned_run h.realizes h.books.apart power wide size
  rw [full] at run
  exact perform_of_error (bind_error run)

theorem carves (listed : l.blocks = carved pre b n rest)
    (aligned : Aligned alignment size l.base b n) :
    s.Carves alignment size pre b n rest (l.base + (n.offset + 32)) := by
  have hn : n ∈ l.blocks := by simp [listed, carved]
  have first := aligned.first
  have enough := aligned.enough
  have tight := aligned.tight
  rw [← h.realizes.base] at first ⊢
  exact {
    address := rfl
    aligned := first
    live := h.live_of_block hn aligned.allocated
    usable := ⟨n.size - 32, usableSize_run h.realizes hn aligned.allocated, by omega, by omega⟩
    within := ⟨aligned.low, aligned.high⟩
    walk := listed ▸ h.realizes.wellFormed h.books.apart
    returned := fun _ => exists_mem_carved pre rest }

end Sound

/-- What an honest program gets when it asks for an alignment. -/
theorem aligns_of_honest (fresh : heap.Fresh) (run : Reaches Honest (start heap) s)
    (alignment size : Nat) : ∃ bs, s.Aligns alignment size bs := by
  obtain ⟨l, sound⟩ := sound_of_honest fresh run
  have ascending := sound.realizes.ascending
  refine ⟨l.blocks, sound.realizes.wellFormed sound.books.apart, ?_, ?_, ?_, ?_⟩
  · intro odd
    exact perform_of_error (bind_error (allocateAligned_of_misaligned odd size))
  · intro power narrow
    have same := funext (allocateAligned_narrow (Word.isPowerOfTwo_iff.mpr power) narrow size)
    simp only [perform, Operation.action, same]
  · intro power wide cramped
    exact sound.crowded (Word.isPowerOfTwo_iff.mpr power) wide (sound.cramped_iff.mp cramped)
  · intro power wide room
    have power := Word.isPowerOfTwo_iff.mpr power
    obtain ⟨⟨o, l'⟩, attempt⟩ :=
      Option.ne_none_iff_exists'.mp (mt sound.cramped_iff.mpr room)
    have least := Word.isLeast_roundUp (show 0 < 32 by decide) (size + alignment + 32)
    obtain ⟨taken, pre, b, n, rest, chooses, brk, base, listed, rfl, aligned⟩ :=
      exists_carved (dvd_of_isPowerOfTwo power wide) (by omega) least sound.books.apart ascending
        attempt
    have advance := sound.allocateAligned alignment size
    simp only [answer_allocateAligned power wide, attempt, granted] at advance
    rw [← base] at aligned
    rw [sound.realizes.layout_eq]
    exact ⟨_, taken, pre, b, n, rest, _, least, chooses, base ▸ advance.replied,
      advance.sound.realizes.brk.trans brk,
      advance.sound.carves listed aligned⟩

/-- Blocks at multiples of 4096 in a heap whose break is off the grid. -/
theorem aligns_off_grid :
    ∃ bs, (tenant.serve (.operation (.sbrk 10))).Aligns 4096 65536 bs :=
  aligns_of_honest mebibyte_fresh (.step tenant_reached (honest_of_no_pointer rfl)) 4096 65536

end Client

end Confine
