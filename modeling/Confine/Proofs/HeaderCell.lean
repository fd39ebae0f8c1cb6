import Confine.Proofs.Action

/-! # Headers as cells of the heap

A header occupies 32 bytes, and every header of the allocator starts at a multiple of 32.  Two such
cells are equal or disjoint, so the headers of the heap behave like a function of their offsets:
`headerAt` reads it and `withHeader` changes it at one offset, and the bytes outside of that cell
stay what they were.
-/

namespace Confine

namespace Memory

theorem get_eq_zero_of_le (m : Memory) {i : Nat} (h : 2 ^ m.height ≤ i) : m.get i = 0 := by
  simp only [get]
  rw [if_neg (by omega)]

theorem get_overlay_of_le (m : Memory) {start length : Nat} (source : Nat → UInt8)
    (h : start + length ≤ 2 ^ m.height) (i : Nat) :
    (m.overlay start length source).get i =
      if start ≤ i ∧ i < start + length then source (i - start) else m.get i := by
  by_cases hi : i < 2 ^ m.height
  · exact get_overlay m start length source i hi
  · rw [if_neg (by omega), get_eq_zero_of_le m (by omega), get_eq_zero_of_le _ (by simpa using hi)]

theorem get_fill_of_le (m : Memory) {start length : Nat} (byte : UInt8)
    (h : start + length ≤ 2 ^ m.height) (i : Nat) :
    (m.fill start length byte).get i =
      if start ≤ i ∧ i < start + length then byte else m.get i := by
  by_cases hi : i < 2 ^ m.height
  · exact get_fill m start length byte i hi
  · rw [if_neg (by omega), get_eq_zero_of_le m (by omega), get_eq_zero_of_le _ (by simpa using hi)]

theorem get_overlay_of_outside (m : Memory) {start length i : Nat} (source : Nat → UInt8)
    (outside : i < start ∨ start + length ≤ i) :
    (m.overlay start length source).get i = m.get i := by
  by_cases hi : i < 2 ^ m.height
  · rw [get_overlay m start length source i hi, if_neg (by omega)]
  · rw [get_eq_zero_of_le m (by omega), get_eq_zero_of_le _ (by simpa using hi)]

theorem get_fill_of_outside (m : Memory) {start length i : Nat} (byte : UInt8)
    (outside : i < start ∨ start + length ≤ i) : (m.fill start length byte).get i = m.get i := by
  by_cases hi : i < 2 ^ m.height
  · rw [get_fill m start length byte i hi, if_neg (by omega)]
  · rw [get_eq_zero_of_le m (by omega), get_eq_zero_of_le _ (by simpa using hi)]

@[simp] theorem height_storeNumber (m : Memory) (start width value : Nat) :
    (m.storeNumber start width value).height = m.height := rfl

@[simp] theorem height_storeNumbers (m : Memory) (start width : Nat) (values : List Nat) :
    (m.storeNumbers start width values).height = m.height := by
  induction values generalizing m start with
  | nil => rfl
  | cons value values ih => rw [storeNumbers, ih, height_storeNumber]

theorem get_storeNumbers_of_outside (m : Memory) (start width : Nat) (values : List Nat) {i : Nat}
    (outside : i < start ∨ start + width * values.length ≤ i) :
    (m.storeNumbers start width values).get i = m.get i := by
  induction values generalizing m start with
  | nil => rfl
  | cons value values ih =>
      simp only [List.length_cons, Nat.mul_add, Nat.mul_one] at outside
      rw [storeNumbers, ih _ _ (by omega), storeNumber, get_overlay_of_outside m _ (by omega)]

theorem number_storeNumbers (m : Memory) (start width : Nat) (values : List Nat)
    (h : start + width * values.length ≤ 2 ^ m.height) {k : Nat} (hk : k < values.length) :
    (m.storeNumbers start width values).number (start + width * k) width =
      values[k] % 256 ^ width := by
  induction values generalizing m start k with
  | nil => exact absurd hk (Nat.not_lt_zero k)
  | cons value values ih =>
      simp only [List.length_cons, Nat.mul_add, Nat.mul_one] at h hk
      cases k with
      | zero =>
          have kept : (m.storeNumbers start width (value :: values)).number start width =
              (m.storeNumber start width value).number start width :=
            number_congr fun i _ below => get_storeNumbers_of_outside _ _ _ _ (.inl below)
          simpa only [Nat.mul_zero, Nat.add_zero, List.getElem_cons_zero, kept] using
            number_storeNumber m start width value (by omega)
      | succ k =>
          have tail := ih (m.storeNumber start width value) (start + width)
            (by simp only [height_storeNumber]; omega) (k := k) (by omega)
          rw [storeNumbers, Nat.mul_add, Nat.mul_one, List.getElem_cons_succ, ← tail]
          congr 1
          omega

end Memory

namespace Header

/-- A header whose fields can all be stored in a word. -/
structure Fits (h : Header) : Prop where
  prev : ∀ p, h.prev = some p → p < Word.max
  next : ∀ n, h.next = some n → n < Word.max
  size : h.size < Word.limit
  reserved : h.reserved < 2 ^ 63

theorem link_ofLink {l : Option Nat} (h : ∀ n, l = some n → n < Word.max) :
    link (ofLink l % Word.limit) = l := by
  cases l with
  | none => rfl
  | some n =>
      have small : n < Word.max := h n rfl
      have word : n % Word.limit = n := Nat.mod_eq_of_lt (by simp only [Word.max] at small; omega)
      simp only [ofLink, Option.getD_some, word, link]
      rw [if_neg (Nat.ne_of_lt small)]

theorem ofWords_words {h : Header} (fits : h.Fits) :
    ofWords (ofLink h.prev % Word.limit) (ofLink h.next % Word.limit) (h.size % Word.limit)
      ((2 * h.reserved + h.allocated.toNat) % Word.limit) = h := by
  have bit : h.allocated.toNat < 2 := h.allocated.toNat_lt
  have reserved := fits.reserved
  have flags : (2 * h.reserved + h.allocated.toNat) % Word.limit =
      2 * h.reserved + h.allocated.toNat :=
    Nat.mod_eq_of_lt (by simp only [Word.limit]; omega)
  have half : (2 * h.reserved + h.allocated.toNat) / 2 = h.reserved := by omega
  have parity : decide ((2 * h.reserved + h.allocated.toNat) % 2 = 1) = h.allocated := by
    cases h.allocated <;> simp
  rw [ofWords, link_ofLink fits.prev, link_ofLink fits.next, flags, half, parity,
    Nat.mod_eq_of_lt fits.size]

end Header

namespace Heap

variable {h : Heap} {c : Cell} {o : Nat} {α : Type}

/-! ## Values that fit -/

/-- The value ends below the break, and its address is aligned. -/
def Fits (h : Heap) (c : Cell) (o : Nat) : Prop :=
  o + c.size ≤ h.brk ∧ c.width ∣ h.base + o

/-- The offset behind the value is a word, and the address of the value is none. -/
def Overshoots (h : Heap) (c : Cell) (o : Nat) : Prop :=
  o + c.size < Word.limit ∧ Word.limit ≤ h.base + o

/-- The value ends below the break, but its offset lies beyond the region. -/
def Strays (h : Heap) (c : Cell) (o : Nat) : Prop :=
  h.Fits c o ∧ h.capacity < o

instance (h : Heap) (c : Cell) (o : Nat) : Decidable (h.Fits c o) :=
  inferInstanceAs (Decidable (_ ∧ _))

instance (h : Heap) (c : Cell) (o : Nat) : Decidable (h.Overshoots c o) :=
  inferInstanceAs (Decidable (_ ∧ _))

instance (h : Heap) (c : Cell) (o : Nat) : Decidable (h.Strays c o) :=
  inferInstanceAs (Decidable (_ ∧ _))

theorem not_strays_of_le (brk_le : h.brk ≤ h.capacity) : ¬h.Strays c o := by
  intro strays
  have below := strays.1.1
  have beyond := strays.2
  omega

section Words

variable (small : h.brk < Word.limit)

include small

theorem admits_eq_ite (c : Cell) (o : Nat) : h.admits c o =
    if h.Overshoots c o then .error .addOverflow else .ok (decide (h.Fits c o)) := by
  by_cases word : o + c.size < Word.limit
  · have stop : Word.add? o c.size = some (o + c.size) := if_pos word
    by_cases high : Word.limit ≤ h.base + o
    · have past : h.Overshoots c o := ⟨word, high⟩
      simp only [admits, stop, Word.add_eq_ite, if_pos high, if_pos past]
      rfl
    · have inside : ¬h.Overshoots c o := fun past => high past.2
      simp only [admits, stop, Word.add_eq_ite, if_neg high, if_neg inside, Fits,
        Nat.dvd_iff_mod_eq_zero]
      rfl
  · have noStop : Word.add? o c.size = none := if_neg word
    have inside : ¬h.Overshoots c o := fun past => word past.1
    have outside : ¬h.Fits c o := fun fits => word (Nat.lt_of_le_of_lt fits.1 small)
    simp only [admits, noStop, if_neg inside, decide_eq_false outside]
    rfl

theorem reaches_eq_ite (c : Cell) (o : Nat) : h.reaches c o =
    if h.Overshoots c o then .error .addOverflow
    else if h.Strays c o then .error .offsetBeyondCapacity
    else .ok (decide (h.Fits c o)) := by
  rw [reaches, admits_eq_ite small]
  by_cases past : h.Overshoots c o
  · simp only [if_pos past]
    rfl
  · by_cases fits : h.Fits c o
    · by_cases beyond : h.capacity < o
      · have strays : h.Strays c o := ⟨fits, beyond⟩
        simp only [if_neg past, if_pos strays, decide_eq_true fits, address,
          if_neg (Nat.not_le_of_lt beyond)]
        rfl
      · have inside : ¬h.Strays c o := fun strays => beyond strays.2
        simp only [if_neg past, if_neg inside, decide_eq_true fits, address,
          if_pos (Nat.le_of_not_lt beyond)]
        rfl
    · have inside : ¬h.Strays c o := fun strays => fits strays.1
      simp only [if_neg past, if_neg inside, decide_eq_false fits]
      rfl

theorem reaches_bind (c : Cell) (o : Nat) (result : α) :
    (do if ← h.reaches c o then return some result else return none : Except Panic (Option α)) =
      if h.Overshoots c o then .error .addOverflow
      else if h.Strays c o then .error .offsetBeyondCapacity
      else .ok (if h.Fits c o then some result else none) := by
  rw [reaches_eq_ite small]
  by_cases past : h.Overshoots c o
  · simp only [if_pos past]
    rfl
  · by_cases strays : h.Strays c o
    · simp only [if_neg past, if_pos strays]
      rfl
    · by_cases fits : h.Fits c o
      · simp only [if_neg past, if_neg strays, if_pos fits, decide_eq_true fits]
        rfl
      · simp only [if_neg past, if_neg strays, if_neg fits, decide_eq_false fits]
        rfl

end Words

/-! ## Headers -/

/-- A heap region that is placed as the system places one: aligned, and so low and so small that an
address of it never leaves the words. -/
structure Placed (h : Heap) : Prop where
  base_dvd : 32 ∣ h.base
  base_le : h.base ≤ 2 ^ 47
  capacity_le : h.capacity ≤ 2 ^ 62
  brk_le : h.brk ≤ h.capacity
  spans : h.capacity ≤ 2 ^ h.memory.height

def headerAt (h : Heap) (offset : Nat) : Header :=
  .ofWords (h.memory.number offset 8) (h.memory.number (offset + 8) 8)
    (h.memory.number (offset + 16) 8) (h.memory.number (offset + 24) 8)

def withHeader (h : Heap) (offset : Nat) (header : Header) : Heap :=
  { h with memory := h.memory.storeNumbers offset 8 header.words }

theorem header?_eq_ite (small : h.brk < Word.limit) (o : Nat) : h.header? o =
    if h.Overshoots .fourWords o then .error .addOverflow
    else if h.Strays .fourWords o then .error .offsetBeyondCapacity
    else .ok (if h.Fits .fourWords o then some (h.headerAt o) else none) :=
  reaches_bind small .fourWords o (h.headerAt o)

namespace Placed

theorem brk_lt (placed : h.Placed) : h.brk < Word.limit := by
  have := placed.capacity_le
  have := placed.brk_le
  simp only [Word.limit]
  omega

theorem fits_header_iff (placed : h.Placed) :
    h.Fits .fourWords o ↔ o + 32 ≤ h.brk ∧ 8 ∣ o :=
  and_congr_right fun _ => Nat.dvd_add_right (Nat.dvd_trans (by decide) placed.base_dvd)

theorem not_strays (placed : h.Placed) : ¬h.Strays c o :=
  not_strays_of_le placed.brk_le

theorem not_overshoots (placed : h.Placed) (below : o ≤ h.brk) : ¬h.Overshoots c o := by
  have := placed.base_le
  have := placed.capacity_le
  have := placed.brk_le
  intro past
  have := past.2
  simp only [Word.limit] at this
  omega

end Placed

theorem header?_eq (placed : h.Placed) {offset : Nat} (aligned : 8 ∣ offset)
    (below : offset + 32 ≤ h.brk) : h.header? offset = .ok (some (h.headerAt offset)) := by
  rw [header?_eq_ite placed.brk_lt, if_neg (placed.not_overshoots (Nat.le_of_add_right_le below)),
    if_neg placed.not_strays, if_pos (placed.fits_header_iff.mpr ⟨below, aligned⟩)]

/-- There is no header where it does not fit, as long as its address is a word. -/
theorem header?_eq_none (placed : h.Placed) (offset : Nat)
    (low : offset + 32 < Word.limit → h.base + offset < Word.limit)
    (outside : ¬(offset + 32 ≤ h.brk ∧ 8 ∣ offset)) : h.header? offset = .ok none := by
  rw [header?_eq_ite placed.brk_lt, if_neg fun past => Nat.not_lt_of_le past.2 (low past.1),
    if_neg placed.not_strays, if_neg (mt placed.fits_header_iff.mp outside)]

theorem storeHeader?_eq (placed : h.Placed) {offset : Nat} (header : Header) (aligned : 8 ∣ offset)
    (below : offset + 32 ≤ h.brk) :
    h.storeHeader? offset header = .ok (some (h.withHeader offset header)) := by
  have stored : h.storeHeader? offset header = _ :=
    reaches_bind placed.brk_lt .fourWords offset (h.withHeader offset header)
  rw [stored, if_neg (placed.not_overshoots (Nat.le_of_add_right_le below)),
    if_neg placed.not_strays, if_pos (placed.fits_header_iff.mpr ⟨below, aligned⟩)]

@[simp] theorem withHeader_height (o : Nat) (hd : Header) :
    (h.withHeader o hd).memory.height = h.memory.height :=
  Memory.height_storeNumbers ..

theorem get_withHeader (h : Heap) {o i : Nat} (hd : Header) (outside : i < o ∨ o + 32 ≤ i) :
    (h.withHeader o hd).memory.get i = h.memory.get i :=
  Memory.get_storeNumbers_of_outside h.memory o 8 hd.words outside

theorem headerAt_congr {g h : Heap} {o : Nat}
    (same : ∀ i, o ≤ i → i < o + 32 → g.memory.get i = h.memory.get i) :
    g.headerAt o = h.headerAt o := by
  have word (k : Nat) (hk : k + 8 ≤ 32) : g.memory.number (o + k) 8 = h.memory.number (o + k) 8 :=
    Memory.number_congr fun i _ _ => same i (by omega) (by omega)
  have first := word 0 (by omega)
  rw [Nat.add_zero] at first
  rw [headerAt, headerAt, first, word 8 (by omega), word 16 (by omega), word 24 (by omega)]

theorem headerAt_withHeader_self (placed : h.Placed) {o : Nat} {hd : Header} (fits : hd.Fits)
    (below : o + 32 ≤ h.brk) : (h.withHeader o hd).headerAt o = hd := by
  have := placed.brk_le
  have := placed.spans
  have word {k : Nat} (hk : k < 4) := Memory.number_storeNumbers h.memory o 8 hd.words
    (by simp only [Header.words, List.length_cons, List.length_nil]; omega) (k := k) hk
  have limit : 256 ^ 8 = Word.limit := by rfl
  have w0 := word (k := 0) (by omega)
  have w1 := word (k := 1) (by omega)
  have w2 := word (k := 2) (by omega)
  have w3 := word (k := 3) (by omega)
  simp only [Header.words, List.getElem_cons_zero, List.getElem_cons_succ, limit, Nat.mul_zero,
    Nat.add_zero, Nat.reduceMul] at w0 w1 w2 w3
  simp only [headerAt, withHeader, Header.words, w0, w1, w2, w3]
  exact Header.ofWords_words fits

end Heap

end Confine
