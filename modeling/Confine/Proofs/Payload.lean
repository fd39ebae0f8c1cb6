import Confine.Proofs.Linked

/-! # Writing into payloads

The bytes behind the header of a listed block belong to no other header, so that writing there
leaves the list alone.  Whether a cell of the grid looks like the header of an allocated block is
decided by two of its bytes, so that zeroing bytes and copying whole payloads never makes one look
so that did not before.
-/

namespace Confine

namespace Memory

theorem number_add (m : Memory) (start v w : Nat) :
    m.number start (v + w) = m.number start v + 256 ^ v * m.number (start + v) w := by
  induction v generalizing start with
  | zero => simp [number]
  | succ v ih =>
      rw [Nat.succ_add, number, ih, number, Nat.pow_succ, Nat.add_assoc start 1 v,
        Nat.add_comm 1 v, Nat.mul_add, Nat.mul_comm (256 ^ v) 256, Nat.mul_assoc, Nat.add_assoc]

theorem number_one (m : Memory) (start : Nat) : m.number start 1 = (m.get start).toNat := by
  simp [number]

end Memory

theorem Heap.calm_iff (h : Heap) (o : Nat) :
    (h.headerAt o).Calm ↔
      (h.memory.get (o + 7)).toNat < 64 ∧ (h.memory.get (o + 24)).toNat % 2 = 0 := by
  have prev : h.memory.number o 8 =
      h.memory.number o 7 + 256 ^ 7 * (h.memory.get (o + 7)).toNat := by
    rw [← Memory.number_one]
    exact h.memory.number_add o 7 1
  have flags : h.memory.number (o + 24) 8 =
      (h.memory.get (o + 24)).toNat + 256 * h.memory.number (o + 24 + 1) 7 := rfl
  have low := h.memory.number_lt o 7
  simp only [Header.Calm, headerAt, Header.ofWords, Header.link, decide_eq_false_iff_not, flags,
    prev]
  constructor
  · rintro ⟨even, p, named, small⟩
    refine ⟨?_, by omega⟩
    split at named
    · cases named
    · cases named
      omega
  · rintro ⟨small, even⟩
    refine ⟨by omega, _, if_neg ?_, by omega⟩
    simp only [Word.max, Word.limit]
    omega

namespace Allocator

open Block

variable {a a' : Allocator} {l : Layout} {b c : Block} {bs : List Block} {i : Nat}

/-- The cells of a payload are not the headers of other blocks, nor of its own. -/
theorem Realizes.unlisted_of_payload (h : Realizes a l) (hb : b ∈ l.blocks)
    (payload : b.offset + 32 ≤ i ∧ i < b.stop) : ∀ c ∈ l.blocks, c.offset ≠ i / 32 * 32 := by
  intro c hc same
  have := (h.ascending.mem hb).2.1
  obtain ⟨-, -, -, large, -⟩ := h.ascending.mem hc
  rcases h.ascending.disjoint hb hc with rfl | below | above
  · omega
  · simp only [stop] at *
    omega
  · simp only [stop] at *
    omega

/-- Bytes that are zero, or lie where other unlisted cells had them, leave the heap quiet. -/
theorem Quiet.of_bytes (h : a.Quiet bs)
    (bytes : ∀ c, 32 ∣ c → (∀ b ∈ bs, b.offset ≠ c) → ∀ k < 32,
      a'.heap.memory.get (c + k) = 0 ∨ ∃ d, 32 ∣ d ∧ (∀ b ∈ bs, b.offset ≠ d) ∧
        a'.heap.memory.get (c + k) = a.heap.memory.get (d + k)) : a'.Quiet bs := by
  intro c grid unlisted
  apply (Heap.calm_iff _ c).mpr
  constructor
  · rcases bytes c grid unlisted 7 (by decide) with zero | ⟨d, gridD, unlistedD, eq⟩
    · rw [zero]
      decide
    · rw [eq]
      exact ((Heap.calm_iff _ d).mp (h d gridD unlistedD)).1
  · rcases bytes c grid unlisted 24 (by decide) with zero | ⟨d, gridD, unlistedD, eq⟩
    · rw [zero]
      rfl
    · rw [eq]
      exact ((Heap.calm_iff _ d).mp (h d gridD unlistedD)).2

theorem Realizes.withMemory {m : Memory} (h : Realizes a l)
    (height : m.height = a.heap.memory.height)
    (same : ∀ i, (∃ b ∈ l.blocks, b.offset = i / 32 * 32) → m.get i = a.heap.memory.get i) :
    Realizes { a with heap.memory := m } l where
  placed := ⟨h.placed.base_dvd, h.placed.base_le, h.placed.capacity_le, h.placed.brk_le,
    height ▸ h.placed.spans⟩
  base := h.base
  capacity := h.capacity
  brk := h.brk
  ascending := h.ascending
  linked := h.linked.congr fun b hb => Heap.headerAt_congr fun i low high =>
    same i ⟨b, hb, by have := (h.cell_of_mem hb).1; omega⟩
  head := h.head
  tail := h.tail
  growths := h.growths

theorem Evolves.write {m : Memory} (h : Realizes a l) (hb : b ∈ l.blocks)
    (height : m.height = a.heap.memory.height)
    (same : ∀ i, i < b.offset + 32 ∨ b.stop ≤ i → m.get i = a.heap.memory.get i)
    (quiet : a.Quiet l.blocks → Quiet { a with heap.memory := m } l.blocks) :
    Evolves b.Covers l l a { a with heap.memory := m } where
  realizes := by
    apply h.withMemory height
    rintro i ⟨c, hc, eq⟩
    apply same i
    by_cases outside : i < b.offset + 32 ∨ b.stop ≤ i
    · exact outside
    · exact absurd eq (h.unlisted_of_payload hb (by omega) c hc)
  base := rfl
  capacity := rfl
  bytes i _ outside := by
    apply same i
    obtain ⟨-, grid, size, large, -⟩ := h.ascending.mem hb
    simp only [Covers, stop] at *
    omega
  listed c hc := .inl ⟨c, hc, rfl⟩
  quiet := quiet

end Allocator

end Confine
