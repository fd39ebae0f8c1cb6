import Confine.Proofs.Allocating

/-! # Pointers that are accepted

`liveBlock` reads a header 32 bytes in front of a pointer and believes it if it `Passes`.  The
headers of allocated blocks that are listed do, those of free ones and calm cells do not, and what
the bytes of a payload say is up to the program.
-/

namespace Confine.Allocator

open Block

variable {a a' : Allocator} {l l' : Layout} {b n : Block} {o p q size : Nat}

/-- The pointer is reported as invalid, and nothing is changed. -/
def Refused (a : Allocator) (p : Nat) : Prop :=
  liveBlock p a = (.error (.error (.invalidPointer p)), a)

/-- The words at an offset pass as the header of an allocated block: they are marked as one, the
size is possible, and the neighbour that they name as the predecessor leads to them. -/
structure Passes (a : Allocator) (o : Nat) : Prop where
  allocated : (a.heap.headerAt o).allocated = true
  large : 32 ≤ (a.heap.headerAt o).size
  fits : o + (a.heap.headerAt o).size ≤ a.heap.brk
  first : (a.heap.headerAt o).prev = none → a.head = some o
  later : ∀ q, (a.heap.headerAt o).prev = some q →
    8 ∣ q ∧ q + 32 ≤ a.heap.brk ∧ (a.heap.headerAt q).next = some o

/-- The words at an offset name a predecessor so far up that its address is no word, although its
end as an offset is one. -/
def Overflows (a : Allocator) (o : Nat) : Prop :=
  ∃ q, (a.heap.headerAt o).prev = some q ∧ q + 32 < Word.limit ∧ Word.limit ≤ a.heap.base + q

theorem offsetOf?_eq_some_iff {address : Nat} :
    a.heap.offsetOf? address = some o ↔ address = a.heap.base + o ∧ o < a.heap.brk := by
  simp only [Heap.offsetOf?, Option.ite_none_right_eq_some, Option.some.injEq]
  omega

theorem subWrapping_payload (placed : a.heap.Placed) (word : p < Word.limit)
    (below : o ≤ a.heap.brk) :
    Word.subWrapping p 32 = a.heap.base + o ↔ p = a.heap.base + (o + 32) := by
  have low := placed.base_le
  have small := placed.capacity_le
  have brk := placed.brk_le
  simp only [Word.limit] at word
  simp only [Word.subWrapping, Word.limit]
  omega

/-! ## The search -/

theorem not_overshoots_of_address (address : Word.subWrapping p 32 = a.heap.base + o) :
    ¬a.heap.Overshoots .fourWords o := by
  have word : Word.subWrapping p 32 < Word.limit := Nat.mod_lt _ (by decide)
  intro past
  exact Nat.not_le_of_lt word (address ▸ past.2)

theorem offsetOf?_of_fits (address : Word.subWrapping p 32 = a.heap.base + o)
    (fits : a.heap.Fits .fourWords o) :
    a.heap.offsetOf? (Word.subWrapping p Header.bytes) = some o := by
  have below : o + 32 ≤ a.heap.brk := fits.1
  exact offsetOf?_eq_some_iff.mpr ⟨address, by omega⟩

section Words

variable (small : a.heap.brk < Word.limit)

include small

/-- What is left of `liveBlock` once the header in front of the pointer has been read. -/
theorem liveBlock_of_fits (address : Word.subWrapping p 32 = a.heap.base + o) (grid : 32 ∣ o)
    (fits : a.heap.Fits .fourWords o) (inRegion : o ≤ a.heap.capacity) :
    liveBlock p a = (do
      let linked ← orPanic (a.isLinked o (a.heap.headerAt o))
      if (a.heap.headerAt o).allocated && Header.bytes ≤ (a.heap.headerAt o).size &&
          (Word.add? o (a.heap.headerAt o).size).any (· ≤ a.heap.brk) && linked then return o
      else fail (.invalidPointer p) : Action Nat) a := by
  have read : a.heap.header? o = .ok (some (a.heap.headerAt o)) := by
    rw [Heap.header?_eq_ite small, if_neg (not_overshoots_of_address address),
      if_neg fun strays => Nat.not_le_of_lt strays.2 inRegion, if_pos fits]
  rw [liveBlock, get_bind, offsetOf?_of_fits address fits]
  dsimp only
  rw [if_neg (by simp only [Header.bytes]; omega), read]
  exact orPanic_ok_bind _ _

theorem liveBlock_of_strays (address : Word.subWrapping p 32 = a.heap.base + o) (grid : 32 ∣ o)
    (strays : a.heap.Strays .fourWords o) :
    liveBlock p a = (.error (.panic .offsetBeyondCapacity), a) := by
  have read : a.heap.header? o = .error .offsetBeyondCapacity := by
    rw [Heap.header?_eq_ite small, if_neg (not_overshoots_of_address address), if_pos strays]
  rw [liveBlock, get_bind, offsetOf?_of_fits address strays.1]
  dsimp only
  rw [if_neg (by simp only [Header.bytes]; omega), read]
  exact bind_error (run_orPanic_error _)

theorem refused_of_not_fits
    (nowhere : ∀ o, Word.subWrapping p 32 = a.heap.base + o → 32 ∣ o → ¬a.heap.Fits .fourWords o) :
    a.Refused p := by
  rw [Refused, liveBlock, get_bind]
  cases found : a.heap.offsetOf? (Word.subWrapping p Header.bytes) with
  | none => exact run_fail _
  | some o =>
      obtain ⟨address, -⟩ := offsetOf?_eq_some_iff.mp found
      dsimp only
      by_cases grid : 32 ∣ o
      · have outside := nowhere o address grid
        rw [if_neg (by simp only [Header.bytes]; omega), Heap.header?_eq_ite small,
          if_neg (not_overshoots_of_address address), if_neg fun strays => outside strays.1,
          if_neg outside]
        rfl
      · rw [if_pos (by simp only [Header.bytes]; omega)]
        exact bind_error (run_fail _)

theorem isLinked_of_overshoots {header : Header} (named : header.prev = some q)
    (past : a.heap.Overshoots .fourWords q) (o : Nat) :
    a.isLinked o header = .error .addOverflow := by
  simp only [isLinked, named, Heap.header?_eq_ite small, if_pos past]
  rfl

theorem isLinked_of_strays {header : Header} (named : header.prev = some q)
    (inside : ¬a.heap.Overshoots .fourWords q) (strays : a.heap.Strays .fourWords q) (o : Nat) :
    a.isLinked o header = .error .offsetBeyondCapacity := by
  simp only [isLinked, named, Heap.header?_eq_ite small, if_neg inside, if_pos strays]
  rfl

end Words

theorem liveBlock_eq (placed : a.heap.Placed) (grid : 32 ∣ o) (below : o + 32 ≤ a.heap.brk) :
    liveBlock (a.heap.base + (o + 32)) a = (do
      let linked ← orPanic (a.isLinked o (a.heap.headerAt o))
      if (a.heap.headerAt o).allocated && Header.bytes ≤ (a.heap.headerAt o).size &&
          (Word.add? o (a.heap.headerAt o).size).any (· ≤ a.heap.brk) && linked then return o
      else fail (.invalidPointer (a.heap.base + (o + 32))) : Action Nat) a := by
  have low := placed.base_le
  have small := placed.capacity_le
  have brk := placed.brk_le
  have address := (subWrapping_payload placed (p := a.heap.base + (o + 32))
    (by simp only [Word.limit]; omega) (Nat.le_of_add_right_le below)).mpr rfl
  exact liveBlock_of_fits placed.brk_lt address grid
    (placed.fits_header_iff.mpr ⟨below, Nat.dvd_trans (by decide) grid⟩) (by omega)

theorem refused_of_off_grid (placed : a.heap.Placed) (word : p < Word.limit)
    (off : ∀ o, 32 ∣ o → o + 32 ≤ a.heap.brk → p ≠ a.heap.base + (o + 32)) : a.Refused p := by
  apply refused_of_not_fits placed.brk_lt
  intro o address grid fits
  have below : o + 32 ≤ a.heap.brk := fits.1
  exact off o grid below
    ((subWrapping_payload placed word (Nat.le_of_add_right_le below)).mp address)

/-- The last check of `liveBlock` has an answer unless an address leaves the words. -/
theorem isLinked_eq (placed : a.heap.Placed) (low : ¬a.Overflows o) :
    ∃ linked, a.isLinked o (a.heap.headerAt o) = .ok linked ∧
      (linked = true ↔ ((a.heap.headerAt o).prev = none → a.head = some o) ∧
        ∀ q, (a.heap.headerAt o).prev = some q →
          8 ∣ q ∧ q + 32 ≤ a.heap.brk ∧ (a.heap.headerAt q).next = some o) := by
  rw [isLinked]
  cases named : (a.heap.headerAt o).prev with
  | none => exact ⟨decide (a.head = some o), rfl, by simp⟩
  | some q =>
      simp only [reduceCtorEq, false_implies, true_and, Option.some.injEq, forall_eq']
      by_cases fits : q + 32 ≤ a.heap.brk ∧ 8 ∣ q
      · rw [Heap.header?_eq placed fits.2 fits.1]
        exact ⟨decide ((a.heap.headerAt q).next = some o), rfl, by simp [fits]⟩
      · have outside := Heap.header?_eq_none placed q
          (fun word => Nat.lt_of_not_le fun high => low ⟨q, named, word, high⟩) fits
        rw [outside]
        refine ⟨false, rfl, ?_⟩
        simp only [Bool.false_eq_true, false_iff]
        exact fun all => fits ⟨all.2.1, all.1⟩

theorem any_add_le {s m : Nat} (word : m < Word.limit) :
    (Word.add? o s).any (· ≤ m) = decide (o + s ≤ m) := by
  rw [Word.add?]
  split
  · rfl
  · exact (decide_eq_false (by omega)).symm

theorem liveBlock_of_overflows (placed : a.heap.Placed) (grid : 32 ∣ o)
    (below : o + 32 ≤ a.heap.brk) (overflows : a.Overflows o) :
    liveBlock (a.heap.base + (o + 32)) a = (.error (.panic .addOverflow), a) := by
  obtain ⟨q, named, past⟩ := overflows
  rw [liveBlock_eq placed grid below, isLinked_of_overshoots placed.brk_lt named past]
  exact bind_error (run_orPanic_error _)

theorem Passes.below (h : a.Passes o) : o + 32 ≤ a.heap.brk :=
  Nat.le_trans (Nat.add_le_add_left h.large o) h.fits

theorem Passes.not_overflows (placed : a.heap.Placed) (h : a.Passes o) : ¬a.Overflows o := by
  rintro ⟨q, named, _, high⟩
  have low := placed.base_le
  have small := placed.capacity_le
  have brk := placed.brk_le
  have below := (h.later q named).2.1
  simp only [Word.limit] at high
  omega

/-- Unless an address leaves the words, a pointer is accepted if the header in front of it passes,
and refused otherwise. -/
theorem liveBlock_cell (placed : a.heap.Placed) (grid : 32 ∣ o) (below : o + 32 ≤ a.heap.brk)
    (low : ¬a.Overflows o) :
    (a.Passes o → liveBlock (a.heap.base + (o + 32)) a = (.ok o, a)) ∧
      (¬a.Passes o → a.Refused (a.heap.base + (o + 32))) := by
  have small := placed.capacity_le
  have brk := placed.brk_le
  obtain ⟨linked, answer, linked_iff⟩ := isLinked_eq placed low
  have all_iff : ((a.heap.headerAt o).allocated && Header.bytes ≤ (a.heap.headerAt o).size &&
      (Word.add? o (a.heap.headerAt o).size).any (· ≤ a.heap.brk) && linked) = true ↔
      a.Passes o := by
    rw [any_add_le (by simp only [Word.limit]; omega)]
    simp only [Bool.and_eq_true, decide_eq_true_eq, linked_iff]
    constructor
    · rintro ⟨⟨⟨allocated, large⟩, fits⟩, first, later⟩
      exact ⟨allocated, large, fits, first, later⟩
    · intro h
      exact ⟨⟨⟨h.allocated, h.large⟩, h.fits⟩, h.first, h.later⟩
  rw [Refused, liveBlock_eq placed grid below, answer, orPanic_ok_bind]
  constructor
  · intro passes
    rw [if_pos (all_iff.mpr passes), run_pure]
  · intro fails
    rw [if_neg fun all => fails (all_iff.mp all), run_fail]

theorem Realizes.passes (h : Realizes a l) (hb : b ∈ l.blocks) (allocated : b.allocated = true) :
    a.Passes b.offset := by
  obtain ⟨pre, rest, eq⟩ := List.append_of_mem hb
  obtain ⟨-, -, -, large, below⟩ := h.ascending.mem hb
  have cell := h.cell_eq eq
  constructor
  · rw [cell]
    exact allocated
  · rw [cell]
    exact large
  · rw [cell, h.brk]
    exact below
  · intro none
    rw [cell, header_prev] at none
    rcases List.eq_nil_or_concat' pre with rfl | ⟨front, c, rfl⟩
    · rw [h.head, eq]
      rfl
    · rw [lastOffset_append] at none
      cases none
  · intro q named
    rw [cell, header_prev] at named
    rcases List.eq_nil_or_concat' pre with rfl | ⟨front, c, rfl⟩
    · cases named
    · rw [lastOffset_append] at named
      cases named
      obtain ⟨grid, room⟩ := h.cell_of_mem (b := c) (by simp [eq])
      refine ⟨Nat.dvd_trans (by decide) grid, room, ?_⟩
      rw [h.cell_eq (show l.blocks = front ++ c :: b :: rest by simp [eq])]
      rfl

theorem not_overflows_of_small (placed : a.heap.Placed)
    (small : ∀ q, (a.heap.headerAt o).prev = some q → q < 2 ^ 62) : ¬a.Overflows o := by
  rintro ⟨q, named, _, high⟩
  have low := placed.base_le
  have := small q named
  simp only [Word.limit] at high
  omega

theorem Realizes.liveBlock_run (h : Realizes a l) (hb : b ∈ l.blocks)
    (allocated : b.allocated = true) :
    liveBlock (a.heap.base + (b.offset + 32)) a = (.ok b.offset, a) := by
  have passes := h.passes hb allocated
  exact (liveBlock_cell h.placed (h.cell_of_mem hb).1 passes.below
    (passes.not_overflows h.placed)).1 passes

theorem Realizes.refused_of_free (h : Realizes a l) (hb : b ∈ l.blocks)
    (free : b.allocated = false) : a.Refused (a.heap.base + (b.offset + 32)) := by
  obtain ⟨pre, rest, eq⟩ := List.append_of_mem hb
  have cell := h.cell_eq eq
  obtain ⟨grid, below⟩ := h.cell_of_mem hb
  have low : ¬a.Overflows b.offset := by
    apply not_overflows_of_small h.placed
    intro q named
    rw [cell, header_prev] at named
    have := h.last_lt pre (fun d hd => by simp [eq, hd]) named
    omega
  apply (liveBlock_cell h.placed grid below low).2
  intro passes
  have marked := passes.allocated
  rw [cell, header_allocated, free] at marked
  cases marked

/-- Words that the allocator left behind neither pass nor overflow. -/
theorem not_forged_of_calm (placed : a.heap.Placed) (calm : (a.heap.headerAt o).Calm) :
    ¬a.Passes o ∧ ¬a.Overflows o := by
  obtain ⟨free, r, named, small⟩ := calm
  constructor
  · intro passes
    rw [passes.allocated] at free
    cases free
  · apply not_overflows_of_small placed
    intro q same
    rw [named] at same
    cases same
    exact small

theorem usableSize_run (h : Realizes a l) (hb : b ∈ l.blocks) (allocated : b.allocated = true) :
    usableSize (a.heap.base + (b.offset + 32)) a = (.ok (b.size - 32), a) := by
  obtain ⟨pre, rest, eq⟩ := List.append_of_mem hb
  have large := (h.ascending.mem hb).2.2.2.1
  have left : Word.sub b.size Header.bytes = .ok (b.size - 32) :=
    Word.sub_eq_ok_iff.mpr ⟨large, rfl⟩
  rw [usableSize, bind_ok (h.liveBlock_run hb allocated), bind_ok (h.header_of_mem hb),
    h.cell_eq eq, header_size, left, run_orPanic_ok]

theorem free_run (window : Nat → Prop) (h : Realizes a l) (apart : Apart l.blocks)
    (hb : b ∈ l.blocks) (allocated : b.allocated = true) :
    ∃ a', free (a.heap.base + (b.offset + 32)) a = (.ok (), a') ∧
      Evolves window l (l.free b.offset) a a' := by
  have nonnull : a.heap.base + (b.offset + 32) ≠ 0 := by omega
  obtain ⟨a', run, evolves⟩ := release_run window h apart hb
  rw [free, if_neg nonnull, bind_ok (h.liveBlock_run hb allocated)]
  exact ⟨a', run, evolves⟩

theorem Realizes.get_copy (h : Realizes a l) (hn : n ∈ l.blocks) (target : size + 32 ≤ n.size)
    (start i : Nat) : (a.heap.memory.copy start (n.offset + 32) size).get i =
      if n.offset + 32 ≤ i ∧ i < n.offset + 32 + size then
        a.heap.memory.get (start + (i - (n.offset + 32)))
      else a.heap.memory.get i :=
  Memory.get_overlay_of_le _ _ (h.payload_le hn target) i

theorem Evolves.copy (size : Nat) (h : Realizes a l) (hb : b ∈ l.blocks) (hn : n ∈ l.blocks)
    (source : size + 32 ≤ b.size) (target : size + 32 ≤ n.size) :
    Evolves n.Covers l l a
      { a with heap.memory := a.heap.memory.copy (b.offset + 32) (n.offset + 32) size } := by
  obtain ⟨-, gridB, -, -, -⟩ := h.ascending.mem hb
  obtain ⟨-, gridN, -, -, -⟩ := h.ascending.mem hn
  apply Evolves.write h hn
  · rfl
  · intro i outside
    simp only [stop] at outside
    rw [h.get_copy hn target, if_neg (by omega)]
  · intro quiet
    apply quiet.of_bytes
    intro c grid unlisted k small
    right
    simp only [h.get_copy hn target]
    split
    · -- payloads start on the grid, so that whole cells are copied from whole cells
      refine ⟨c - n.offset + b.offset, by omega, ?_, ?_⟩
      · have payload : b.offset + 32 ≤ c - n.offset + b.offset + k ∧
            c - n.offset + b.offset + k < b.stop := by
          simp only [stop]
          omega
        have cell : c - n.offset + b.offset = (c - n.offset + b.offset + k) / 32 * 32 := by omega
        rw [cell]
        exact h.unlisted_of_payload hb payload
      · congr 1
        omega
    · exact ⟨c, grid, unlisted, rfl⟩

/-- Bytes that are copied out of a block are still there when the block was released. -/
theorem move_run (h : Realizes a l) (apart : Apart l.blocks) (hb : b ∈ l.blocks)
    (hn : n ∈ l.blocks) (source : size + 32 ≤ b.size) (target : size + 32 ≤ n.size) :
    ∃ a', release b.offset
        { a with heap.memory := a.heap.memory.copy (b.offset + 32) (n.offset + 32) size } =
          (.ok (), a') ∧ Evolves n.Covers l (l.free b.offset) a a' ∧
      ∀ i < size, a'.heap.memory.get (n.offset + 32 + i) =
        a.heap.memory.get (b.offset + 32 + i) := by
  have copied := Evolves.copy size h hb hn source target
  obtain ⟨a', run, evolves⟩ := release_run (fun _ => False) copied.realizes apart hb
  refine ⟨a', run, copied.trans (evolves.mono fun _ none => none.elim), ?_⟩
  intro i small
  have payload : n.offset + 32 ≤ n.offset + 32 + i ∧ n.offset + 32 + i < n.stop := by
    simp only [stop]
    omega
  -- the release writes headers only, and none of them lies in the payload
  rw [evolves.bytes _ (copied.realizes.unlisted_of_payload hn payload) id, h.get_copy hn target,
    if_pos (by omega), Nat.add_sub_cancel_left]

theorem resize_run (h : Realizes a l) (apart : Apart l.blocks) (hb : b ∈ l.blocks)
    (allocated : b.allocated = true) (positive : size ≠ 0) :
    match l.allocate size with
    | none => resize (a.heap.base + (b.offset + 32)) size a = (.error (.error .outOfMemory), a)
    | some (o, l') => ∃ a', resize (a.heap.base + (b.offset + 32)) size a =
          (.ok (some (a.heap.base + (o + 32))), a') ∧
        Evolves l.Vacant l (l'.free b.offset) a a' ∧
        ∀ i < min (b.size - 32) size, a'.heap.memory.get (o + 32 + i) =
          a.heap.memory.get (b.offset + 32 + i) := by
  have nonnull : a.heap.base + (b.offset + 32) ≠ 0 := by omega
  obtain ⟨pre, rest, eq⟩ := List.append_of_mem hb
  obtain ⟨-, grid, -, large, -⟩ := h.ascending.mem hb
  have left : Word.sub b.size Header.bytes = .ok (b.size - 32) :=
    Word.sub_eq_ok_iff.mpr ⟨large, rfl⟩
  have run := allocate_run h apart size
  rw [resize, if_neg nonnull, if_neg positive, bind_ok (h.liveBlock_run hb allocated),
    bind_ok (h.header_of_mem hb), h.cell_eq eq, header_size, left, orPanic_ok_bind]
  cases served : l.allocate size with
  | none =>
      rw [served] at run
      exact bind_error run
  | some result =>
      obtain ⟨o, l'⟩ := result
      rw [served] at run
      obtain ⟨a₁, run₁, evolves₁⟩ := run
      obtain ⟨n, rfl, room, takes, -⟩ := Layout.allocate_eq_some h.ascending served
      have hn : n ∈ l'.blocks := (takes.mem n takes.allocated).mpr (.inr rfl)
      have hb' : b ∈ l'.blocks := (takes.mem b allocated).mpr (.inl hb)
      have copies : min (b.size - 32) size ≤ size := Nat.min_le_right ..
      have source : min (b.size - 32) size + 32 ≤ b.size := by omega
      obtain ⟨a₂, run₂, evolves₂, copied⟩ := move_run evolves₁.realizes takes.apart hb' hn source
        (Nat.le_trans (Nat.add_le_add_right copies 32) room)
      have start : a.heap.base + (b.offset + 32) - a₁.heap.base = b.offset + 32 := by
        rw [evolves₁.base, Nat.add_sub_cancel_left]
      have target : a.heap.base + (n.offset + 32) - a₁.heap.base = n.offset + 32 := by
        rw [evolves₁.base, Nat.add_sub_cancel_left]
      refine ⟨a₂, ?_, evolves₁.trans (evolves₂.mono takes.vacant), ?_⟩
      · rw [bind_ok run₁, modify_bind]
        simp only [start, target]
        exact bind_ok run₂
      · intro i small
        have payload : b.offset + 32 ≤ b.offset + 32 + i ∧ b.offset + 32 + i < b.stop := by
          simp only [stop]
          omega
        -- the allocation leaves the payload of the old block alone
        rw [copied i small, evolves₁.bytes _ (h.unlisted_of_payload hb payload)]
        apply Layout.not_vacant h.ascending hb allocated
        have := payload.2
        exact ⟨by omega, by omega⟩

/-- A refused pointer is refused by every operation that takes one. -/
theorem Refused.all (h : a.Refused p) (nonnull : p ≠ 0) (size : Nat) :
    usableSize p a = (.error (.error (.invalidPointer p)), a) ∧
      free p a = (.error (.error (.invalidPointer p)), a) ∧
      resize p size a = (.error (.error (.invalidPointer p)), a) := by
  have freed : free p a = (.error (.error (.invalidPointer p)), a) := by
    rw [free, if_neg nonnull]
    exact bind_error h
  refine ⟨bind_error h, freed, ?_⟩
  rw [resize, if_neg nonnull]
  by_cases zero : size = 0
  · rw [if_pos zero]
    exact bind_error freed
  · rw [if_neg zero]
    exact bind_error h

end Confine.Allocator
