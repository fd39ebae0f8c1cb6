import Confine.Proofs.Client.FirstFit
import Confine.Proofs.Client.Lending

/-! # Resizing

A live payload that is resized always moves.  The allocation of the new block writes no byte of the
old one, and the release of the old block writes none of the new one, so that the bytes arrive
whatever lies between the two.
-/

namespace Confine

open Block Layout Allocator

namespace Client

variable {s : Client} {l l' : Layout} {heap : Heap} {b n : Block} {p q r size usable : Nat}

/-- A live payload has moved to another address, where there is room for the new size.  The bytes
that fit there were copied, and the list is that of an allocation and a free. -/
structure Relocates (s t : Client) (p usable size q : Nat) : Prop where
  replied : s.reply (.operation (.resize p size)) = .address (some q)
  ne : q ≠ p
  live : q ∈ t.live
  released : p ∉ t.live
  room : ∃ u, Allocator.usableSize q t.allocator = (.ok u, t.allocator) ∧ size ≤ u
  copied : ∀ i < min usable size, t.allocator.byteAt (q + i) = s.allocator.byteAt (p + i)
  freed : (s.serve (.operation (.allocate size))).reply (.operation (.free p)) = .done
  list : ∃ bs, t.allocator.WellFormed bs ∧ ((s.serve (.operation (.allocate size))).serve
    (.operation (.free p))).allocator.WellFormed bs
  brk : t.allocator.heap.brk = ((s.serve (.operation (.allocate size))).serve
    (.operation (.free p))).allocator.heap.brk
  others : ∀ r ∈ s.live, r ≠ p → r ∈ t.live ∧ ∃ u, s.allocator.Lends r u ∧ t.allocator.Lends r u ∧
    ∀ i < u, t.allocator.byteAt (r + i) = s.allocator.byteAt (r + i)

/-- A resize fails without a change when an allocation would, and moves the payload otherwise. -/
structure Resizes (s : Client) (p size usable : Nat) : Prop where
  before : Allocator.usableSize p s.allocator = (.ok usable, s.allocator)
  fails : s.Fails (.allocate size) →
    s.allocator.perform (.operation (.resize p size)) =
      (.failed (.error .outOfMemory), s.allocator) ∧ s.serve (.operation (.resize p size)) = s
  serves : ¬s.Fails (.allocate size) →
    ∃ q, s.Relocates (s.serve (.operation (.resize p size))) p usable size q

theorem Sound.others_of_resize (h : Sound s l) (live : p ∈ s.live) (other : r ∈ s.live)
    (ne : r ≠ p) (size : Nat) : r ∈ (s.serve (.operation (.resize p size))).live ∧
      ∃ u, s.allocator.Lends r u ∧
        (s.serve (.operation (.resize p size))).allocator.Lends r u ∧ ∀ i < u,
          (s.serve (.operation (.resize p size))).allocator.byteAt (r + i) =
            s.allocator.byteAt (r + i) := by
  have honest : s.Honest (.operation (.resize p size)) :=
    honest_of_operation fun q pointer => by cases pointer; exact .inr (.inl live)
  have kept : ¬(Request.operation (.resize p size)).Releases s.allocator r := by
    rintro ⟨released | ⟨_, released⟩, -⟩ <;> cases released
    exact ne rfl
  obtain ⟨u, lends⟩ := h.lends_of_live other
  obtain ⟨lends', same⟩ := h.lends_serve honest lends kept
  exact ⟨mem_live_serve other kept, u, lends, lends', fun i small =>
    same _ (Nat.le_add_right r i) (Nat.add_lt_add_left small r) id⟩

/-- What fits into the new block is copied there. -/
theorem Sound.copied_of_resize (h : Sound s l) (hb : b ∈ l.blocks) (allocated : b.allocated = true)
    (positive : size ≠ 0) (served : l.allocate size = some (n.offset, l')) {i : Nat}
    (small : i < min (b.size - 32) size) :
    (s.serve (.operation (.resize (s.allocator.heap.base + (b.offset + 32)) size))).allocator.byteAt
        (s.allocator.heap.base + (n.offset + 32) + i) =
      s.allocator.byteAt (s.allocator.heap.base + (b.offset + 32) + i) := by
  have run := resize_run h.realizes h.books.apart hb allocated positive
  rw [served] at run
  obtain ⟨a', run, evolves, copied⟩ := run
  have resized : (Operation.resize _ size).action s.allocator = _ := bind_ok run
  simp only [serve_ok resized, byteAt, evolves.base, Nat.add_assoc, Nat.add_sub_cancel_left]
  simpa only [Nat.add_assoc] using copied i small

theorem Sound.relocates (h : Sound s l) (hb : b ∈ l.blocks) (allocated : b.allocated = true)
    (positive : size ≠ 0) (served : l.allocate size = some (n.offset, l'))
    (enough : size + 32 ≤ n.size) (takes : l.Takes l' n) :
    s.Relocates (s.serve (.operation (.resize (s.allocator.heap.base + (b.offset + 32)) size)))
      (s.allocator.heap.base + (b.offset + 32)) (b.size - 32) size
      (s.allocator.heap.base + (n.offset + 32)) := by
  have live := h.live_of_block hb allocated
  have moved := h.moved hb allocated positive
  have taking := h.allocate size
  simp only [Layout.answer, served, Option.map_some, granted] at moved taking
  have hb' : b ∈ l'.blocks := (takes.mem b allocated).mpr (.inl hb)
  have freeing := taking.sound.free_block hb' allocated
  rw [taking.evolves.base] at freeing
  have fresh : l.address n ∉ s.live :=
    h.books.fresh h.realizes.ascending taking.sound.realizes.ascending takes
  rw [Layout.address, ← h.realizes.base] at fresh
  have ne : s.allocator.heap.base + (n.offset + 32) ≠ s.allocator.heap.base + (b.offset + 32) :=
    fun same => fresh (same ▸ live)
  have frees := free_frees l' b.offset
  have hn : n ∈ (l'.free b.offset).blocks :=
    (frees.mem n takes.allocated).mpr ⟨(takes.mem n takes.allocated).mpr (.inr rfl), by omega⟩
  have kept := moved.sound.live_of_block hn takes.allocated
  have usable := usableSize_run moved.sound.realizes hn takes.allocated
  have same := moved.evolves.base
  rw [same] at kept usable
  exact {
    replied := by
      rw [moved.replied, h.realizes.base]
      rfl
    ne := ne
    live := kept
    released := by
      intro still
      obtain ⟨c, hc, marked, eq⟩ := moved.sound.block_of_live still
      have := ((frees.mem c marked).mp hc).2
      omega
    room := ⟨n.size - 32, usable, by omega⟩
    copied := fun i => h.copied_of_resize hb allocated positive served
    freed := freeing.replied
    list := ⟨_, moved.sound.realizes.wellFormed frees.apart,
      freeing.sound.realizes.wellFormed frees.apart⟩
    brk := moved.sound.realizes.brk.trans freeing.sound.realizes.brk.symm
    others := fun r other apart => h.others_of_resize live other apart size }

/-- An honest program loses nothing when it resizes a live payload. -/
theorem resizes_of_honest (fresh : heap.Fresh) (run : Reaches Honest (start heap) s)
    (live : p ∈ s.live) (positive : size ≠ 0) : ∃ usable, s.Resizes p size usable := by
  obtain ⟨l, sound⟩ := sound_of_honest fresh run
  obtain ⟨b, hb, allocated, rfl⟩ := sound.block_of_live live
  refine ⟨_, usableSize_run sound.realizes hb allocated, ?_, ?_⟩
  · intro fails
    have run := resize_run sound.realizes sound.books.apart hb allocated positive
    rw [sound.fails_allocate_iff.mp fails] at run
    have failed : (Operation.resize _ size).action s.allocator = _ := bind_error run
    exact ⟨perform_of_error failed, serve_error failed⟩
  · rw [sound.fails_allocate_iff]
    intro room
    obtain ⟨⟨o, l'⟩, served⟩ := Option.ne_none_iff_exists'.mp room
    obtain ⟨n, rfl, enough, takes, -⟩ :=
      Layout.allocate_eq_some sound.realizes.ascending served
    exact ⟨_, sound.relocates hb allocated positive served enough takes⟩

/-- A program that has stored words in the middle of its block grows it. -/
theorem resizes_after_writes :
    2 ^ 32 + 32 ∈ (writer [64, 64, 32, 1]).live ∧ 400 ≠ 0 ∧
      ∃ usable, (writer [64, 64, 32, 1]).Resizes (2 ^ 32 + 32) 400 usable := by
  have live : 2 ^ 32 + 32 ∈ (writer [64, 64, 32, 1]).live := by decide +kernel
  exact ⟨live, by decide, resizes_of_honest mebibyte_fresh
    (@writer_reached [64, 64, 32, 1] (by decide)) live (by decide)⟩

end Client

end Confine
