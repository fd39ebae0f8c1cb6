import Confine.Proofs.Client.Isolation

/-! # Blocks on loan

What a program has of an allocator can be read off the allocator alone: the blocks of its list that
are marked as allocated.  Whatever an honest program asks for, a block that it does not release
stays where it is, and keeps all bytes that the program does not write.
-/

namespace Confine

open Allocator

/-- The allocator has given this address to the program and not got it back, with so many usable
bytes. -/
def Allocator.Lends (a : Allocator) (x size : Nat) : Prop :=
  ∃ bs, a.blocks = .ok bs ∧ ∃ b ∈ bs, b.allocated = true ∧
    x = a.heap.base + (b.offset + 32) ∧ b.size = size + 32

def Allocator.byteAt (a : Allocator) (address : Nat) : UInt8 :=
  a.heap.memory.get (address - a.heap.base)

/-- The answer of the allocator frees or resizes the block at the address. -/
def Request.Releases (request : Request Nat) (a : Allocator) (x : Nat) : Prop :=
  (request = .operation (.free x) ∨ ∃ size, request = .operation (.resize x size)) ∧
    ∀ fault, (a.perform request).1 ≠ .failed fault

namespace Client

variable {s : Client} {l : Layout} {x y size other : Nat} {request : Request Nat}
  {op : Operation Nat}

theorem mem_live_serve (live : x ∈ s.live) (kept : ¬request.Releases s.allocator x) :
    x ∈ (s.serve request).live := by
  cases request with
  | access => exact live
  | operation op =>
      change x ∈ liveAfter s.live op (s.allocator.perform (.operation op)).1
      have other {old : Nat} (released : old = x → (Request.operation op).Releases s.allocator x) :
          x ∈ s.live.filter (· ≠ old) :=
        List.mem_filter.mpr ⟨live, decide_eq_true fun same => kept (released same.symm)⟩
      unfold liveAfter
      split
      · exact List.mem_cons_of_mem _ live
      · exact List.mem_cons_of_mem _ live
      · exact List.mem_cons_of_mem _ live
      · next old size _ answer =>
          refine List.mem_cons_of_mem _ (other ?_)
          rintro rfl
          exact ⟨.inr ⟨size, rfl⟩, by rw [answer]; nofun⟩
      · next old size answer =>
          refine other ?_
          rintro rfl
          exact ⟨.inr ⟨size, rfl⟩, by rw [answer]; nofun⟩
      · next old answer =>
          refine other ?_
          rintro rfl
          exact ⟨.inl rfl, by rw [answer]; nofun⟩
      · exact live

theorem reply_of_shape {α : Type} {x : Action α} {g : α → Reply}
    (shape : op.action = x >>= fun v => pure (g v)) :
    (∃ v, s.reply (.operation op) = g v) ∨ ∃ fault, s.reply (.operation op) = .failed fault := by
  rcases run : x s.allocator with ⟨fault | v, a'⟩
  · exact .inr ⟨fault, reply_error (shape ▸ bind_error run)⟩
  · exact .inl ⟨v, reply_ok (shape ▸ bind_ok run)⟩

namespace Sound

variable (h : Sound s l)

include h

theorem lends_iff : s.allocator.Lends x size ↔ ∃ b ∈ l.blocks, b.allocated = true ∧
    x = s.allocator.heap.base + (b.offset + 32) ∧ b.size = size + 32 := by
  have walk := (h.realizes.wellFormed h.books.apart).walk
  constructor
  · rintro ⟨bs, listed, lent⟩
    cases walk.symm.trans listed
    exact lent
  · exact fun lent => ⟨l.blocks, walk, lent⟩

theorem live_of_lends (lends : s.allocator.Lends x size) : x ∈ s.live := by
  obtain ⟨b, hb, allocated, rfl, -⟩ := h.lends_iff.mp lends
  exact h.live_of_block hb allocated

theorem lends_of_live (live : x ∈ s.live) : ∃ size, s.allocator.Lends x size := by
  obtain ⟨b, hb, allocated, eq⟩ := h.block_of_live live
  have large := (h.realizes.ascending.mem hb).2.2.2.1
  exact ⟨b.size - 32, h.lends_iff.mpr ⟨b, hb, allocated, eq, by omega⟩⟩

/-- An address that is handed out is on loan. -/
theorem lends_of_reply (honest : s.Honest (.operation op)) (allocating : ∀ i, op ≠ .sbrk i)
    (handed : s.reply (.operation op) = .address (some x)) :
    ∃ size, (s.serve (.operation op)).allocator.Lends x size := by
  obtain ⟨l', sound', -⟩ := h.step (h.careful_of_honest honest)
  refine sound'.lends_of_live ?_
  change x ∈ liveAfter s.live op (s.reply (.operation op))
  rw [handed]
  cases op with
  | allocate | zeroAllocate | allocateAligned | resize => exact List.mem_cons_self
  | sbrk increment => exact absurd rfl (allocating increment)
  | free p =>
      have shape : (Operation.free p).action = Allocator.free p >>= fun _ => pure .done := rfl
      rcases reply_of_shape shape with ⟨_, answer⟩ | ⟨_, answer⟩ <;> cases handed.symm.trans answer
  | usableSize p =>
      have shape : (Operation.usableSize p).action =
          Allocator.usableSize p >>= fun size => pure (.size size) := rfl
      rcases reply_of_shape shape with ⟨_, answer⟩ | ⟨_, answer⟩ <;> cases handed.symm.trans answer

theorem usable_of_lends (lends : s.allocator.Lends x size) :
    Allocator.usableSize x s.allocator = (.ok size, s.allocator) := by
  obtain ⟨b, hb, allocated, rfl, eq⟩ := h.lends_iff.mp lends
  rw [usableSize_run h.realizes hb allocated, eq, Nat.add_sub_cancel]

/-- Blocks that are on loan at the same time have no byte in common. -/
theorem apart_of_lends (lends : s.allocator.Lends x size) (lends' : s.allocator.Lends y other)
    (ne : x ≠ y) : x + size ≤ y ∨ y + other ≤ x := by
  obtain ⟨b, hb, -, rfl, eq⟩ := h.lends_iff.mp lends
  obtain ⟨c, hc, -, rfl, eq'⟩ := h.lends_iff.mp lends'
  rcases h.realizes.ascending.disjoint hb hc with rfl | below | above
  · exact absurd rfl ne
  · simp only [Block.stop] at below
    omega
  · simp only [Block.stop] at above
    omega

/-- A block that an honest request does not release stays as it is, but for what the request
writes. -/
theorem lends_serve (honest : s.Honest request) (lends : s.allocator.Lends x size)
    (kept : ¬request.Releases s.allocator x) :
    (s.serve request).allocator.Lends x size ∧ ∀ address, x ≤ address → address < x + size →
      ¬request.Writes address → (s.serve request).allocator.byteAt address =
        s.allocator.byteAt address := by
  have live := mem_live_serve (h.live_of_lends lends) kept
  obtain ⟨b, hb, allocated, rfl, eq⟩ := h.lends_iff.mp lends
  obtain ⟨l', sound', retains, base, bytes⟩ := h.step (h.careful_of_honest honest)
  have hb' := h.kept sound' retains base hb allocated live
  refine ⟨sound'.lends_iff.mpr ⟨b, hb', allocated, by rw [base], eq⟩, ?_⟩
  intro address low high spared
  obtain ⟨i, rfl⟩ := Nat.exists_eq_add_of_le (Nat.le_of_add_right_le low)
  have owned : s.Owns i :=
    h.owns_iff.mpr (.inl ⟨b, hb, allocated, by omega, by simp only [Block.stop]; omega⟩)
  have same := bytes i owned spared
  rw [byteAt, byteAt, base, Nat.add_sub_cancel_left]
  exact same

end Sound

end Client

end Confine
