import Confine.Proofs.Layout.Operations

/-! # What the operations leave alone

An operation on a layout cuts the space of its blocks anew, after it has appended one if none was
large enough, and changes at most one allocated block.  `Takes` and `Frees` say so, and nothing else
about how blocks are cut and merged matters to a program that holds some of them.
-/

namespace Confine.Layout

open Block

variable {l l' l'' : Layout} {b c n : Block} {o i gap required size alignment : Nat}

/-- The same space is cut into other blocks. -/
structure Recuts (l l' : Layout) : Prop where
  covered : ∀ i, Covered l'.blocks i ↔ Covered l.blocks i
  brk : l'.brk = l.brk
  growths : l'.growths = l.growths

/-- A block was appended at the first multiple of 32 from the break on, and the space cut anew. -/
structure Appends (size : Nat) (l l' : Layout) : Prop where
  covered : ∀ i, Covered l'.blocks i ↔
    Covered l.blocks i ∨ Word.roundUp l.brk 32 ≤ i ∧ i < Word.roundUp l.brk 32 + size
  brk : l'.brk = Word.roundUp l.brk 32 + size
  growths : l'.growths = ⟨Word.roundUp l.brk 32, size⟩ :: l.growths
  positive : 0 < size

/-- The space of the blocks has grown by an appended block, or not at all. -/
def Grows (l l' : Layout) : Prop :=
  l.Recuts l' ∨ ∃ size, l.Appends size l'

/-- One more block is allocated than before, in space that was vacant. -/
structure Takes (l l' : Layout) (n : Block) : Prop where
  allocated : n.allocated = true
  mem : ∀ c : Block, c.allocated = true → (c ∈ l'.blocks ↔ c ∈ l.blocks ∨ c = n)
  vacant : ∀ i, n.Covers i → l.Vacant i
  grows : l.Grows l'
  apart : Apart l'.blocks

structure Frees (l l' : Layout) (o : Nat) : Prop where
  mem : ∀ c : Block, c.allocated = true → (c ∈ l'.blocks ↔ c ∈ l.blocks ∧ c.offset ≠ o)
  recuts : l.Recuts l'
  apart : Apart l'.blocks

theorem Recuts.refl (l : Layout) : l.Recuts l :=
  ⟨fun _ => Iff.rfl, rfl, rfl⟩

theorem Recuts.trans (h : l.Recuts l') (h' : l'.Recuts l'') : l.Recuts l'' :=
  ⟨fun i => (h'.covered i).trans (h.covered i), h'.brk.trans h.brk, h'.growths.trans h.growths⟩

theorem Grows.recut (h : l.Grows l') (h' : l'.Recuts l'') : l.Grows l'' := by
  cases h with
  | inl recuts => exact .inl (recuts.trans h')
  | inr appended =>
      obtain ⟨size, appends⟩ := appended
      exact .inr ⟨size, fun i => (h'.covered i).trans (appends.covered i),
        h'.brk.trans appends.brk, h'.growths.trans appends.growths, appends.positive⟩

theorem Grows.brk_le (h : l.Grows l') : l.brk ≤ l'.brk := by
  rcases h with recuts | ⟨size, appends⟩
  · exact Nat.le_of_eq recuts.brk.symm
  · rw [appends.brk]
    exact Nat.le_add_right_of_le (Word.le_roundUp (by decide))

theorem Grows.within (h : l.Grows l') (covered : Covered l'.blocks i) :
    Covered l.blocks i ∨ l.brk ≤ i := by
  rcases h with recuts | ⟨size, appends⟩
  · exact .inl ((recuts.covered i).mp covered)
  · cases (appends.covered i).mp covered with
    | inl old => exact .inl old
    | inr new => exact .inr (Nat.le_trans (Word.le_roundUp (by decide)) new.1)

theorem not_vacant (ascending : Ascending 0 l.brk l.blocks) (hc : c ∈ l.blocks)
    (allocated : c.allocated = true) (covers : c.Covers i) : ¬l.Vacant i := by
  rintro (⟨b, hb, free, meets⟩ | behind)
  · rcases ascending.disjoint hc hb with rfl | below | above
    · rw [allocated] at free
      cases free
    · exact absurd (Nat.lt_of_lt_of_le covers.2 (Nat.le_trans below meets.1)) (Nat.lt_irrefl _)
    · exact absurd (Nat.lt_of_lt_of_le meets.2 (Nat.le_trans above covers.1)) (Nat.lt_irrefl _)
  · have := (ascending.mem hc).2.2.2.2
    exact absurd (Nat.lt_of_lt_of_le covers.2 (Nat.le_trans this behind)) (Nat.lt_irrefl _)

theorem recuts_replace {f : Block → List Block}
    (h : ∀ b ∈ l.blocks, b.offset = o → ∀ i, Covered (f b) i ↔ b.Covers i) :
    l.Recuts (l.replace o f) :=
  ⟨fun i => covered_compact.trans (covered_replaceAt fun b hb same => h b hb same i), rfl, rfl⟩

theorem mem_replace_of_allocated {f : Block → List Block} (h : c.allocated = true) :
    c ∈ (l.replace o f).blocks ↔
      (c ∈ l.blocks ∧ c.offset ≠ o) ∨ ∃ b ∈ l.blocks, b.offset = o ∧ c ∈ f b :=
  (mem_compact_of_allocated h).trans mem_replaceAt

/-- The allocated one of the pieces of a block. -/
def served (b : Block) (gap required : Nat) : Block :=
  ⟨b.offset + gap, if b.size - gap ≤ required + 32 then b.size - gap else required, true⟩

theorem mem_pieces_of_allocated (h : c.allocated = true) :
    c ∈ b.pieces gap required ↔ c = served b gap required := by
  have notGap : ∀ o s, c ≠ ⟨o, s, false⟩ := by
    rintro o s rfl
    cases h
  simp only [pieces, served, List.mem_append]
  split <;> split <;> simp [notGap]

theorem covers_of_served (room : gap + required ≤ b.size) (hi : (served b gap required).Covers i) :
    b.Covers i :=
  (covered_pieces room).mp ⟨_, (mem_pieces_of_allocated rfl).mpr rfl, hi⟩

theorem mem_replace_pieces {s t : Nat} (ascending : Ascending s t l.blocks) (hb : b ∈ l.blocks)
    (h : c.allocated = true) :
    c ∈ (l.replace b.offset (·.pieces gap required)).blocks ↔
      (c ∈ l.blocks ∧ c.offset ≠ b.offset) ∨ c = served b gap required := by
  rw [mem_replace_of_allocated h]
  apply or_congr_right
  constructor
  · rintro ⟨d, hd, same, piece⟩
    rw [ascending.eq_of_offset hd hb same] at piece
    exact (mem_pieces_of_allocated h).mp piece
  · intro eq
    exact ⟨b, hb, rfl, (mem_pieces_of_allocated h).mpr eq⟩

theorem recuts_replace_pieces {s t : Nat} (ascending : Ascending s t l.blocks) (hb : b ∈ l.blocks)
    (room : gap + required ≤ b.size) : l.Recuts (l.replace b.offset (·.pieces gap required)) := by
  apply recuts_replace
  intro d hd same i
  rw [ascending.eq_of_offset hd hb same]
  exact covered_pieces room

theorem ascending_replace_pieces (ascending : Ascending 0 l.brk l.blocks) (hb : b ∈ l.blocks)
    (gridGap : 32 ∣ gap) (grid : 32 ∣ required) (large : 32 ≤ required)
    (room : gap + required ≤ b.size) :
    Ascending 0 l.brk (l.replace b.offset (·.pieces gap required)).blocks := by
  apply Ascending.compact
  apply ascending.replaceAt
  intro d hd same
  rw [ascending.eq_of_offset hd hb same]
  obtain ⟨-, offset, size, -, -⟩ := ascending.mem hb
  exact ascending_pieces offset size gridGap grid large room

/-- A free block that is large enough, in a layout that differs from another one by growth only. -/
structure Finds (l l' : Layout) (required : Nat) (b : Block) : Prop where
  listed : b ∈ l'.blocks
  free : b.allocated = false
  enough : required ≤ b.size
  mem : ∀ c : Block, c.allocated = true → (c ∈ l'.blocks ↔ c ∈ l.blocks)
  vacant : ∀ i, b.Covers i → l.Vacant i
  grows : l.Grows l'
  ascending : Ascending 0 l'.brk l'.blocks

theorem grow_finds (ascending : Ascending 0 l.brk l.blocks) (grid : 32 ∣ required)
    (large : 32 ≤ required) (h : l.grow required = some l') :
    l.Finds l' required ⟨Word.roundUp l.brk 32, l.growth required, false⟩ := by
  obtain ⟨-, rfl⟩ := grow_eq_some h
  have low : l.brk ≤ Word.roundUp l.brk 32 := Word.le_roundUp (by decide)
  have enough := l.le_growth required
  constructor
  · exact List.mem_append_right _ (List.mem_singleton_self _)
  · rfl
  · exact enough
  · intro c hc
    simp only [List.mem_append, List.mem_singleton, or_iff_left_iff_imp]
    rintro rfl
    cases hc
  · intro i hi
    exact .inr (Nat.le_trans low hi.1)
  · refine .inr ⟨l.growth required, fun i => ?_, rfl, rfl, by omega⟩
    exact covered_append.trans (or_congr_right covered_singleton)
  · exact ascending_append.mpr ⟨_, ascending.mono (Nat.le_refl 0) low, Nat.le_refl _,
      Word.dvd_roundUp l.brk 32, l.dvd_growth grid, Nat.le_trans large enough, Nat.le_refl _⟩

theorem find_eq_some {l₁ : Layout} (ascending : Ascending 0 l.brk l.blocks) (grid : 32 ∣ required)
    (large : 32 ≤ required) (h : l.find required = some (o, l₁)) :
    ∃ b, b.offset = o ∧ l.Finds l₁ required b := by
  unfold find at h
  split at h
  · next b found =>
      obtain ⟨fits, pre, rest, eq, -⟩ := List.find?_eq_some_iff_append.mp found
      simp only [serves, Bool.and_eq_true, Bool.not_eq_true', decide_eq_true_eq] at fits
      have hb : b ∈ l.blocks := by simp [eq]
      cases h
      exact ⟨b, rfl, hb, fits.1, fits.2, fun _ _ => Iff.rfl, fun i hi => .inl ⟨b, hb, fits.1, hi⟩,
        .inl (Recuts.refl l), ascending⟩
  · obtain ⟨l₂, grown, eq⟩ := Option.map_eq_some_iff.mp h
    cases eq
    exact ⟨_, rfl, grow_finds ascending grid large grown⟩

theorem take_eq_some (ascending : Ascending 0 l.brk l.blocks) (grid : 32 ∣ required)
    (large : 32 ≤ required) (h : l.take required = some (o, l')) :
    ∃ n, n.offset = o ∧ required ≤ n.size ∧ l.Takes l' n ∧ Ascending 0 l'.brk l'.blocks := by
  simp only [take, Option.bind_eq_bind, Option.bind_eq_some_iff, Prod.exists] at h
  obtain ⟨_, l₁, found, eq⟩ := h
  cases eq
  obtain ⟨b, rfl, finds⟩ := find_eq_some ascending grid large found
  have room : 0 + required ≤ b.size := (Nat.zero_add required).symm ▸ finds.enough
  refine ⟨served b 0 required, rfl, ?_, ⟨rfl, ?_, ?_, ?_, apart_compact _⟩, ?_⟩
  · simp only [served]
    split <;> omega
  · intro c hc
    rw [mem_replace_pieces finds.ascending finds.listed hc, finds.mem c hc]
    apply or_congr_left
    apply and_iff_left_of_imp
    intro hl same
    -- the block that is replaced is free, and only one block lies at its offset
    rw [finds.ascending.eq_of_offset ((finds.mem c hc).mpr hl) finds.listed same, finds.free] at hc
    cases hc
  · intro i hi
    exact finds.vacant i (covers_of_served room hi)
  · exact finds.grows.recut (recuts_replace_pieces finds.ascending finds.listed room)
  · exact ascending_replace_pieces finds.ascending finds.listed (Nat.dvd_zero 32) grid large room

theorem requiredSize_eq_some (h : Allocator.requiredSize size = some required) :
    32 ∣ required ∧ size + 32 ≤ required ∧ required < size + 64 := by
  simp only [Allocator.requiredSize, Option.bind_eq_bind, Option.bind_eq_some_iff] at h
  obtain ⟨whole, sum, rounded⟩ := h
  obtain ⟨rfl, -⟩ := Word.add?_eq_some_iff.mp sum
  simp only [Word.roundUp?] at rounded
  split at rounded
  · cases rounded
    have low : size + 32 ≤ Word.roundUp (size + 32) 32 := Word.le_roundUp (by decide)
    have high : Word.roundUp (size + 32) 32 < size + 32 + 32 := Word.roundUp_lt (by decide)
    simp only [Header.bytes]
    exact ⟨Word.dvd_roundUp _ 32, low, by omega⟩
  · cases rounded

theorem allocate_eq_some (ascending : Ascending 0 l.brk l.blocks)
    (h : l.allocate size = some (o, l')) :
    ∃ n, n.offset = o ∧ size + 32 ≤ n.size ∧ l.Takes l' n ∧ Ascending 0 l'.brk l'.blocks := by
  simp only [allocate, Option.bind_eq_bind, Option.bind_eq_some_iff] at h
  obtain ⟨required, sized, taken⟩ := h
  obtain ⟨grid, large, -⟩ := requiredSize_eq_some sized
  obtain ⟨n, offset, enough, takes⟩ := take_eq_some ascending grid (by omega) taken
  exact ⟨n, offset, by omega, takes⟩

/-- A block that was taken is cut down, to a part of it that may start behind a gap. -/
theorem Takes.replace_pieces (h : l.Takes l' n) (ascending : Ascending 0 l.brk l.blocks)
    (ascending' : Ascending 0 l'.brk l'.blocks) (room : gap + required ≤ n.size) :
    l.Takes (l'.replace n.offset (·.pieces gap required)) (served n gap required) where
  allocated := rfl
  mem c hc := by
    have hn : n ∈ l'.blocks := (h.mem n h.allocated).mpr (.inr rfl)
    rw [mem_replace_pieces ascending' hn hc, h.mem c hc]
    apply or_congr_left
    constructor
    · rintro ⟨old | rfl, ne⟩
      · exact old
      · exact absurd rfl ne
    · intro old
      refine ⟨.inl old, ?_⟩
      intro same
      have := (ascending.mem old).2.2.2.1
      have := (ascending'.mem hn).2.2.2.1
      exact not_vacant ascending old hc (i := n.offset)
        ⟨Nat.le_of_eq same, by simp only [stop]; omega⟩
        (h.vacant n.offset ⟨Nat.le_refl _, by simp only [stop]; omega⟩)
  vacant i hi := h.vacant i (covers_of_served room hi)
  grows :=
    h.grows.recut (recuts_replace_pieces ascending' ((h.mem n h.allocated).mpr (.inr rfl)) room)
  apart := apart_compact _

theorem gap_lt (address : Nat) (positive : 0 < alignment) :
    ∃ gap, Word.roundUp address alignment = address + gap ∧ gap < alignment ∧
      alignment ∣ address + gap := by
  have low := Word.le_roundUp (n := address) positive
  have high := Word.roundUp_lt (n := address) positive
  have grid := Word.dvd_roundUp address alignment
  refine ⟨Word.roundUp address alignment - address, by omega, by omega, ?_⟩
  rwa [Nat.add_sub_cancel' low]

theorem padded_eq {padded : Nat} (wide : 32 ∣ alignment)
    (h : Allocator.requiredSize size = some required)
    (h' : (Word.add? size alignment >>= Allocator.requiredSize) = some padded) :
    padded = required + alignment := by
  simp only [Option.bind_eq_bind, Option.bind_eq_some_iff] at h'
  obtain ⟨sum, added, sized⟩ := h'
  obtain ⟨rfl, -⟩ := Word.add?_eq_some_iff.mp added
  have := requiredSize_eq_some h
  have := requiredSize_eq_some sized
  omega

/-- An aligned allocation takes a larger block, and cuts it down behind a gap. -/
theorem allocateAligned_eq_some_iff (positive : 0 < alignment) :
    l.allocateAligned alignment size = some (o, l') ↔
      ∃ required padded c taken gap, Allocator.requiredSize size = some required ∧
        (Word.add? size alignment >>= Allocator.requiredSize) = some padded ∧
        l.take padded = some (c, taken) ∧
        Word.roundUp (l.base + (c + 32)) alignment = l.base + (c + 32) + gap ∧ gap < alignment ∧
        o = c + gap ∧ l' = taken.replace c (·.pieces gap required) := by
  simp only [allocateAligned, Option.bind_eq_bind]
  constructor
  · intro h
    simp only [Option.bind_eq_some_iff, Prod.exists] at h
    obtain ⟨required, sized, padded, padding, c, taken, cut, eq⟩ := h
    obtain ⟨gap, rounded, small, -⟩ := gap_lt (l.base + (c + 32)) positive
    rw [rounded, Nat.add_sub_cancel_left] at eq
    cases eq
    exact ⟨required, padded, c, taken, gap, sized, Option.bind_eq_some_iff.mpr padding, cut,
      rounded, small, rfl, rfl⟩
  · rintro ⟨required, padded, c, taken, gap, sized, padding, cut, rounded, -, rfl, rfl⟩
    simp [sized, padding, cut, rounded]

theorem allocateAligned_eq_some (ascending : Ascending 0 l.brk l.blocks) (wide : 32 ∣ alignment)
    (positive : 0 < alignment) (h : l.allocateAligned alignment size = some (o, l')) :
    ∃ n, n.offset = o ∧ size + 32 ≤ n.size ∧ alignment ∣ l.base + (o + 32) ∧ l.Takes l' n := by
  obtain ⟨required, padded, c, taken, gap, sized, padding, cut, rounded, small, rfl, rfl⟩ :=
    (allocateAligned_eq_some_iff positive).mp h
  obtain ⟨grid, large, -⟩ := requiredSize_eq_some sized
  have room := padded_eq wide sized padding
  obtain ⟨n, rfl, enough, takes, ascending'⟩ := take_eq_some ascending (by omega) (by omega) cut
  refine ⟨served n gap required, rfl, ?_, ?_, takes.replace_pieces ascending ascending' (by omega)⟩
  · simp only [served]
    split <;> omega
  · have same : l.base + (n.offset + gap + 32) = l.base + (n.offset + 32) + gap := by omega
    rw [same, ← rounded]
    exact Word.dvd_roundUp _ _

theorem free_frees (l : Layout) (o : Nat) : l.Frees (l.free o) o where
  mem c hc := by
    rw [free, mem_replace_of_allocated hc, or_iff_left]
    rintro ⟨d, -, -, piece⟩
    rw [List.mem_singleton] at piece
    subst piece
    cases hc
  recuts := recuts_replace fun _ _ _ _ => covered_singleton
  apart := apart_compact _

end Confine.Layout
