import Confine.Proofs.Client.Runs

/-! # The block list of an honest program

Whatever an honest program does, the headers in the heap's bytes form one doubly linked list of
blocks in the order of their offsets, without overlaps and without two free neighbours that touch,
and the allocated ones are those that the program has.
-/

namespace Confine

open Block Layout Allocator

namespace Block

variable {s t : Nat} {bs : List Block}

theorem Ascending.ordered (h : Ascending s t bs) : bs.Pairwise fun b c => b.stop ≤ c.offset := by
  induction bs generalizing s with
  | nil => exact List.Pairwise.nil
  | cons b rest ih =>
      exact List.pairwise_cons.mpr ⟨fun c hc => (h.2.2.2.2.mem hc).1, ih h.2.2.2.2⟩

end Block

namespace Allocator

variable {a : Allocator} {l : Layout}

/-- The headers that a walk from the head meets form a list of the blocks of a heap. -/
structure WellFormed (a : Allocator) (bs : List Block) : Prop where
  walk : a.blocks = .ok bs
  head : a.head = firstOffset none bs
  tail : a.tail = lastOffset none bs
  linked : Linked a.heap.headerAt none none bs
  ordered : bs.Pairwise fun b c => b.stop ≤ c.offset
  grid : ∀ b ∈ bs, 32 ∣ b.offset ∧ 32 ∣ b.size
  large : ∀ b ∈ bs, 32 ≤ b.size
  below : ∀ b ∈ bs, b.stop ≤ a.heap.brk
  apart : Apart bs

theorem blocksFrom_eq {before : Option Nat} {s : Nat} {bs : List Block} (limit : Nat)
    (placed : a.heap.Placed) (ascending : Ascending s a.heap.brk bs)
    (linked : Linked a.heap.headerAt before none bs) :
    a.blocksFrom limit (firstOffset none bs) = .ok (bs.take limit) := by
  induction bs generalizing before s limit with
  | nil => cases limit <;> rfl
  | cons b rest ih =>
      obtain ⟨-, grid, -, large, back⟩ := ascending
      have below := back.le
      simp only [stop] at below
      cases limit with
      | zero => rfl
      | succ limit =>
          have walked := ih limit back linked.2
          rw [firstOffset_cons, blocksFrom, headerOf_eq placed grid (by omega), linked.1]
          exact congrArg (fun e => e >>= fun bs => pure (b :: bs)) walked

theorem Realizes.firstBlocks_eq (h : Realizes a l) (limit : Nat) :
    a.firstBlocks limit = .ok (l.blocks.take limit) := by
  rw [firstBlocks, h.head]
  exact blocksFrom_eq limit h.placed (h.brk ▸ h.ascending) h.linked

theorem Realizes.length_le (h : Realizes a l) : l.blocks.length ≤ a.heap.brk / 32 := by
  have length := h.ascending.length_le
  have brk := h.brk
  omega

theorem Realizes.blocks_eq (h : Realizes a l) : a.blocks = .ok l.blocks := by
  have length := h.length_le
  rw [blocks, h.firstBlocks_eq, List.take_of_length_le (by simp only [walkBound]; omega)]

theorem Realizes.wellFormed (h : Realizes a l) (apart : Apart l.blocks) :
    a.WellFormed l.blocks where
  walk := h.blocks_eq
  head := h.head
  tail := h.tail
  linked := h.linked
  ordered := h.ascending.ordered
  grid b hb := ⟨(h.ascending.mem hb).2.1, (h.ascending.mem hb).2.2.1⟩
  large b hb := (h.ascending.mem hb).2.2.2.1
  below b hb := h.brk ▸ (h.ascending.mem hb).2.2.2.2
  apart := apart

end Allocator

namespace Client

variable {s : Client} {heap : Heap}

theorem sound_of_honest (fresh : heap.Fresh) (run : Reaches Honest (start heap) s) :
    ∃ l, Sound s l :=
  run.sound ⟨_, Sound.start fresh⟩ fun _ _ _ => Sound.careful_of_honest

/-- The block list is well formed after every run of an honest program, and its allocated blocks
are the live ones. -/
theorem wellFormed_of_honest (fresh : heap.Fresh) (run : Reaches Honest (start heap) s) :
    ∃ bs, s.allocator.WellFormed bs ∧
      ∀ p, p ∈ s.live ↔
        ∃ b ∈ bs, b.allocated = true ∧ p = s.allocator.heap.base + (b.offset + 32) := by
  obtain ⟨l, sound⟩ := sound_of_honest fresh run
  refine ⟨l.blocks, sound.realizes.wellFormed sound.books.apart, ?_⟩
  intro p
  rw [sound.realizes.base]
  exact sound.books.mem_live p

/-- Words in a payload that look like a header do not disturb the list. -/
theorem wellFormed_after_writes :
    ∃ bs, (writer [64, 64, 32, 1]).allocator.WellFormed bs ∧
      ∀ p, p ∈ (writer [64, 64, 32, 1]).live ↔ ∃ b ∈ bs, b.allocated = true ∧
        p = (writer [64, 64, 32, 1]).allocator.heap.base + (b.offset + 32) :=
  wellFormed_of_honest mebibyte_fresh (writer_reached (by decide))

end Client

end Confine
