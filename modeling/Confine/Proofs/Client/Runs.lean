import Confine.Proofs.Client.Sound

/-! # Steps and runs

The bytes that a program owns are the payloads of its live blocks and the spans that it holds.  No
operation changes them, and an access changes only those that it writes, so that a step of a careful
program keeps it sound and leaves its bytes to it.
-/

namespace Confine

namespace Access

variable {access : Access Nat} {base i : Nat} {m : Memory}

theorem height_carryOut : (access.carryOut base m).2.height = m.height := by
  cases access with
  | fill _ _ _ => rfl
  | store _ _ => rfl
  | storeWords _ _ => exact Memory.height_storeNumbers ..
  | load _ _ => rfl

theorem get_carryOut (outside : i < Word.subWrapping access.pointer base ∨
      Word.subWrapping access.pointer base + access.stored ≤ i) :
    (access.carryOut base m).2.get i = m.get i := by
  cases access with
  | fill _ _ _ => exact Memory.get_fill_of_outside m _ outside
  | store _ _ => exact Memory.get_overlay_of_outside m _ outside
  | storeWords _ _ => exact Memory.get_storeNumbers_of_outside m _ 8 _ outside
  | load _ _ => rfl

end Access

open Block Layout Allocator

theorem Word.subWrapping_add {base i : Nat} (hb : base < Word.limit) (hi : i < Word.limit) :
    Word.subWrapping (base + i) base = i := by
  rw [Word.subWrapping, Nat.mod_eq_of_lt hb]
  have : base + i + limit - base = i + limit := by omega
  rw [this, Nat.add_mod_right, Nat.mod_eq_of_lt hi]

/-- A region that the system has just reserved, of whatever size, at an address that allows for it.
-/
structure Heap.Sited (h : Heap) : Prop where
  reserved : Heap.reserve h.base h.capacity = .ok h
  base_dvd : 32 ∣ h.base
  base_le : h.base ≤ 2 ^ 47

theorem Heap.Fresh.sited {h : Heap} (fresh : h.Fresh) : h.Sited where
  reserved := fresh.reserved
  base_dvd := Nat.dvd_trans (by decide) fresh.base_dvd
  base_le := fresh.base_le

theorem Heap.reserve_eq_ok {base capacity : Nat} {h : Heap}
    (granted : Heap.reserve base capacity = .ok h) :
    capacity < 2 ^ 62 ∧ h = ⟨base, capacity, 0, .zeros capacity⟩ := by
  unfold reserve at granted
  split at granted
  · cases granted
  · split at granted
    · cases granted
    · next low =>
        cases granted
        exact ⟨Nat.lt_of_not_le low, rfl⟩

theorem Heap.Fresh.zeros {h : Heap} (fresh : h.Fresh) :
    h.brk = 0 ∧ h.memory = .zeros h.capacity := by
  obtain ⟨-, eq⟩ := Heap.reserve_eq_ok fresh.reserved
  exact ⟨congrArg Heap.brk eq, congrArg Heap.memory eq⟩

namespace Client

variable {s t u : Client} {l l' : Layout} {b : Block} {request : Request Nat} {p i : Nat}
  {result : Reply × Layout}

def byte (s : Client) (i : Nat) : UInt8 :=
  s.allocator.heap.memory.get i

namespace Sound

theorem usable_eq (h : Sound s l) (hb : b ∈ l.blocks) (allocated : b.allocated = true) :
    s.usable (s.allocator.heap.base + (b.offset + 32)) = ⟨b.offset + 32, b.stop⟩ := by
  have large := (h.realizes.ascending.mem hb).2.2.2.1
  rw [usable, usableSize_run h.realizes hb allocated]
  simp only [Nat.add_sub_cancel_left, stop, Span.mk.injEq, true_and]
  omega

theorem owns_iff (h : Sound s l) :
    s.Owns i ↔ (∃ b ∈ l.blocks, b.allocated = true ∧ b.offset + 32 ≤ i ∧ i < b.stop) ∨
      ∃ span ∈ s.held, span.Has i := by
  apply or_congr_left
  constructor
  · rintro ⟨p, live, has⟩
    obtain ⟨b, hb, allocated, rfl⟩ := h.block_of_live live
    rw [h.usable_eq hb allocated] at has
    exact ⟨b, hb, allocated, has⟩
  · rintro ⟨b, hb, allocated, has⟩
    refine ⟨s.allocator.heap.base + (b.offset + 32),
      h.live_of_block hb allocated, ?_⟩
    rw [h.usable_eq hb allocated]
    exact has

/-- The cell of a byte that the program owns is no header, and lies in no vacant space. -/
theorem cell_of_owned (h : Sound s l) (owned : s.Owns i) :
    (∀ b ∈ l.blocks, b.offset ≠ i / 32 * 32) ∧ ¬l.Vacant (i / 32 * 32) := by
  have ascending := h.realizes.ascending
  have whole {b : Block} (hb : b ∈ l.blocks) (covers : b.Covers (i / 32 * 32)) : b.Covers i := by
    obtain ⟨-, grid, size, -, -⟩ := ascending.mem hb
    simp only [Covers, stop] at covers ⊢
    omega
  rcases h.owns_iff.mp owned with ⟨b, hb, allocated, payload⟩ | ⟨span, hs, has⟩
  · obtain ⟨-, grid, -, -, -⟩ := ascending.mem hb
    refine ⟨h.realizes.unlisted_of_payload hb payload, not_vacant ascending hb allocated ?_⟩
    have := payload.2
    exact ⟨by omega, by omega⟩
  · have clear := h.books.clear span hs i has
    have below := h.books.below span hs i has
    constructor
    · intro b hb same
      have large := (ascending.mem hb).2.2.2.1
      exact clear b hb (whole hb ⟨Nat.le_of_eq same, by simp only [stop]; omega⟩)
    · rintro (⟨b, hb, -, covers⟩ | behind)
      · exact clear b hb (whole hb covers)
      · omega

theorem lt_of_owned (h : Sound s l) (owned : s.Owns i) : i < l.brk := by
  rcases h.owns_iff.mp owned with ⟨b, hb, -, -, high⟩ | ⟨span, hs, has⟩
  · exact Nat.lt_of_lt_of_le high (h.realizes.ascending.mem hb).2.2.2.2
  · exact h.books.below span hs i has

theorem byte_operation {op : Operation Nat} (h : Sound s l) (advance : Advance s op l result)
    (owned : s.Owns i) : (s.serve (.operation op)).byte i = s.byte i :=
  advance.evolves.bytes i (h.cell_of_owned owned).1 (h.cell_of_owned owned).2

theorem serve_access (s : Client) (access : Access Nat) :
    s.serve (.access access) = s ∨ s.serve (.access access) =
      { s with
        allocator.heap.memory :=
          (access.carryOut s.allocator.heap.base s.allocator.heap.memory).2 } := by
  simp only [serve, perform]
  split
  · exact .inl rfl
  · exact .inr rfl

theorem byte_access {access : Access Nat} (h : Sound s l) (own : s.OwnWrites (.access access))
    (kept : ¬(Request.access access).Writes (s.allocator.heap.base + i)) :
    (s.serve (.access access)).byte i = s.byte i := by
  cases serve_access s access with
  | inl same =>
      rw [same]
  | inr changed =>
      rw [changed]
      apply Access.get_carryOut
      by_cases empty : access.stored = 0
      · omega
      · -- the first byte that is written is one of the heap, so that the offset does not wrap
        obtain ⟨j, pointer, owned⟩ := own access.pointer ⟨Nat.le_refl _, by omega⟩
        have := h.lt_of_owned owned
        have := h.realizes.brk_le
        have := h.realizes.placed.base_le
        rw [pointer, Word.subWrapping_add (by simp only [Word.limit]; omega)
          (by simp only [Word.limit]; omega)]
        simp only [Request.Writes, pointer] at kept
        omega

theorem access {access : Access Nat} (h : Sound s l) (own : s.OwnWrites (.access access)) :
    Sound (s.serve (.access access)) l := by
  cases serve_access s access with
  | inl same =>
      rw [same]
      exact h
  | inr changed =>
      have kept : ∀ i, ¬s.Owns i → (s.serve (.access access)).byte i = s.byte i := by
        intro i foreign
        apply h.byte_access own
        intro writes
        obtain ⟨j, eq, owned⟩ := own _ writes
        exact foreign (Nat.add_left_cancel eq ▸ owned)
      rw [changed] at kept ⊢
      refine ⟨h.realizes.withMemory Access.height_carryOut ?_, h.books⟩
      rintro i ⟨b, hb, same⟩
      exact kept i fun owned => (h.cell_of_owned owned).1 b hb same

/-- What a step of a careful program preserves. -/
theorem step (h : Sound s l) (careful : s.Careful request) :
    ∃ l', Sound (s.serve request) l' ∧ l.Retains l' ∧
      (s.serve request).allocator.heap.base = s.allocator.heap.base ∧
      ∀ i, s.Owns i → ¬request.Writes (s.allocator.heap.base + i) →
        (s.serve request).byte i = s.byte i := by
  cases request with
  | operation op =>
      obtain ⟨result, -, advance⟩ := h.operation op fun p => careful.2 op p rfl
      exact ⟨result.2, advance.sound, advance.retains, advance.evolves.base,
        fun i owned _ => h.byte_operation advance owned⟩
  | access access =>
      refine ⟨l, h.access careful.1, fun b hb _ => .inl hb, ?_,
        fun i _ kept => h.byte_access careful.1 kept⟩
      cases serve_access s access with
      | inl same =>
          rw [same]
      | inr changed =>
          rw [changed]

theorem capacity_serve (h : Sound s l) (careful : s.Careful request) :
    (s.serve request).allocator.heap.capacity = s.allocator.heap.capacity := by
  cases request with
  | operation op =>
      obtain ⟨result, -, advance⟩ := h.operation op fun p => careful.2 op p rfl
      exact advance.evolves.capacity
  | access access =>
      cases serve_access s access with
      | inl same => rw [same]
      | inr changed => rw [changed]

theorem start_of_sited {heap : Heap} (sited : heap.Sited) :
    Sound (Client.start heap) (.empty heap.base heap.capacity) := by
  obtain ⟨small, eq⟩ := Heap.reserve_eq_ok sited.reserved
  have brk : heap.brk = 0 := congrArg Heap.brk eq
  have spans := Memory.lt_height_zeros heap.capacity
  rw [← show heap.memory = .zeros heap.capacity from congrArg Heap.memory eq] at spans
  refine ⟨⟨⟨sited.base_dvd, sited.base_le, Nat.le_of_lt small, ?_, Nat.le_of_lt spans⟩, rfl, rfl,
    brk, Nat.le_refl 0, trivial, rfl, rfl, rfl⟩, Books.empty _ _⟩
  rw [Client.start, new, brk]
  exact Nat.zero_le _

theorem start {heap : Heap} (fresh : heap.Fresh) :
    Sound (Client.start heap) (.empty heap.base heap.capacity) :=
  start_of_sited fresh.sited

theorem refused_of_stray (h : Sound s l) (stray : s.Stray p) : s.allocator.Refused p := by
  apply refused_of_off_grid h.realizes.placed stray.1
  intro o grid below eq
  apply stray.2
  refine ⟨by omega, by omega, ?_⟩
  rwa [eq, Nat.add_sub_assoc (Nat.le_add_left 32 o), Nat.add_sub_cancel, Nat.add_sub_cancel_left]

theorem careful_of_honest (h : Sound s l) (honest : s.Honest request) : s.Careful request := by
  refine ⟨honest.1, ?_⟩
  intro op p eq pointer
  rcases honest.2 op p eq pointer with null | live | stray
  · exact .inl null
  · exact .inr (.inl live)
  · exact .inr (.inr (h.refused_of_stray stray))

end Sound

theorem Reaches.sound {allowed : Client → Request Nat → Prop} (run : Reaches allowed s t)
    (h : ∃ l, Sound s l)
    (careful : ∀ u l request, Sound u l → allowed u request → u.Careful request) :
    ∃ l, Sound t l := by
  induction run with
  | refl => exact h
  | step _ step ih =>
      obtain ⟨l, sound⟩ := ih
      obtain ⟨l', sound', -⟩ := sound.step (careful _ l _ sound step)
      exact ⟨l', sound'⟩

theorem Reaches.capacity {allowed : Client → Request Nat → Prop} (run : Reaches allowed s t)
    (h : ∃ l, Sound s l)
    (careful : ∀ u l request, Sound u l → allowed u request → u.Careful request) :
    t.allocator.heap.capacity = s.allocator.heap.capacity := by
  induction run with
  | refl => rfl
  | step run step ih =>
      obtain ⟨l, sound⟩ := run.sound h careful
      exact (sound.capacity_serve (careful _ l _ sound step)).trans ih

end Client

end Confine
