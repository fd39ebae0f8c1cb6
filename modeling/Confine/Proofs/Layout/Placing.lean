import Confine.Proofs.Layout.Cutting
import Mathlib.Order.Bounds.Basic

/-! # Where a block is placed

A request is served by the first free block that is large enough, or by one appended behind the
break, and only that block is cut.  `Chooses` says which block it is in terms of offsets and sizes,
and the lists after an allocation are the list before it with the chosen block replaced.
-/

namespace Confine

theorem Word.isLeast_roundUp {unit : Nat} (positive : 0 < unit) (n : Nat) :
    IsLeast {m | unit ∣ m ∧ n ≤ m} (roundUp n unit) := by
  refine ⟨⟨dvd_roundUp n unit, le_roundUp positive⟩, ?_⟩
  rintro m ⟨⟨k, rfl⟩, low⟩
  have high : roundUp n unit < unit * (k + 1) := by
    have := roundUp_lt (n := n) positive
    rw [Nat.mul_add, Nat.mul_one]
    omega
  obtain ⟨j, same⟩ := dvd_roundUp n unit
  rw [same] at high ⊢
  exact Nat.mul_le_mul_left unit (Nat.le_of_lt_succ (Nat.lt_of_mul_lt_mul_left high))

namespace Layout

open Block

variable {l l' taken : Layout} {b : Block} {pre rest : List Block}
  {o size alignment gap required padded : Nat}

/-- Which free block serves a request of `required` bytes, between which others, and the layout that
has it: the one at the lowest offset that is large enough, and if none is, one appended at the first
multiple of 32 from the break on, of 64 KiB at least as long as the region has room for that. -/
inductive Chooses (l : Layout) (required : Nat) :
    Layout → List Block → Block → List Block → Prop
  | first {pre rest : List Block} {b : Block} (listed : l.blocks = pre ++ b :: rest)
      (suits : b.Suits required) (lowest : ∀ c ∈ l.blocks, c.Suits required → b.offset ≤ c.offset) :
      Chooses l required l pre b rest
  | appended {o size : Nat} (none : ∀ c ∈ l.blocks, ¬c.Suits required)
      (start : IsLeast {m | 32 ∣ m ∧ l.brk ≤ m} o)
      (extent : size =
        if o + max required 65536 ≤ l.capacity then max required 65536 else required)
      (room : o + size ≤ l.capacity) :
      Chooses l required
        { l with
          brk := o + size
          blocks := l.blocks ++ [⟨o, size, false⟩]
          growths := ⟨o, size⟩ :: l.growths } l.blocks ⟨o, size, false⟩ []

/-- No block can serve a request of `required` bytes, and none can be appended: either there is no
such word, or there is no room. -/
def Exhausted (l : Layout) (required : Nat) : Prop :=
  Word.limit ≤ required ∨ (∀ c ∈ l.blocks, ¬c.Suits required) ∧
    ∀ o, IsLeast {m | 32 ∣ m ∧ l.brk ≤ m} o → l.capacity < o + required

/-- The size of a block for a payload is the least multiple of 32 that has room for a header too, if
that is a word. -/
theorem requiredSize_eq (least : IsLeast {m | 32 ∣ m ∧ size + 32 ≤ m} required) :
    Allocator.requiredSize size = if required < Word.limit then some required else none := by
  cases least.unique (Word.isLeast_roundUp (by decide) (size + 32))
  have low : size + 32 ≤ Word.roundUp (size + 32) 32 := Word.le_roundUp (by decide)
  by_cases word : size + 32 < Word.limit
  · have sum : Word.add? size Header.bytes = some (size + 32) :=
      Word.add?_eq_some_iff.mpr ⟨rfl, word⟩
    rw [Allocator.requiredSize, sum]
    rfl
  · have none : Word.add? size Header.bytes = none := if_neg word
    rw [Allocator.requiredSize, none, if_neg (by omega)]
    rfl

theorem grow_eq_none_iff :
    l.grow required = none ↔ l.capacity < Word.roundUp l.brk 32 + required := by
  have enough := l.le_growth required
  simp only [grow, ite_eq_right_iff, reduceCtorEq, imp_false, Nat.not_le]
  constructor
  · intro full
    by_cases wide : Word.roundUp l.brk 32 + max required Allocator.minExtension ≤ l.capacity
    · rw [growth, if_pos wide] at full
      exact absurd wide (Nat.not_le.mpr full)
    · rwa [growth, if_neg wide] at full
  · intro full
    omega

/-- No block is found if none is large enough and there is no room for one behind the break. -/
theorem find_eq_none_iff : l.find required = none ↔ (∀ c ∈ l.blocks, ¬c.Suits required) ∧
    ∀ o, IsLeast {m | 32 ∣ m ∧ l.brk ≤ m} o → l.capacity < o + required := by
  have least := Word.isLeast_roundUp (show 0 < 32 by decide) l.brk
  have none_iff : l.blocks.find? (serves required) = none ↔ ∀ c ∈ l.blocks, ¬c.Suits required := by
    simp only [List.find?_eq_none, serves_iff]
  rw [← none_iff, find]
  cases found : l.blocks.find? (serves required) with
  | some b => simp
  | none =>
      simp only [Option.map_eq_none_iff, grow_eq_none_iff, true_and]
      constructor
      · intro full o start
        rwa [start.unique least]
      · intro full
        exact full _ least

theorem chooses_of_find (ascending : Ascending 0 l.brk l.blocks)
    (h : l.find required = some (o, taken)) :
    ∃ pre b rest, b.offset = o ∧ l.Chooses required taken pre b rest := by
  unfold find at h
  split at h
  · next b found =>
      obtain ⟨suits, pre, rest, listed, earlier⟩ := List.find?_eq_some_iff_append.mp found
      cases h
      refine ⟨pre, b, rest, rfl, .first listed (serves_iff.mp suits) ?_⟩
      intro c hc fits
      rw [listed] at hc ascending
      obtain ⟨m, -, -, -, -, -, back⟩ := ascending_append.mp ascending
      rcases List.mem_append.mp hc with front | behind
      · have unfit := earlier c front
        rw [serves_iff.mpr fits] at unfit
        cases unfit
      · cases behind with
        | head => exact Nat.le_refl _
        | tail _ hc => exact Nat.le_of_add_right_le (back.mem hc).1
  · next found =>
      obtain ⟨grown, growth, eq⟩ := Option.map_eq_some_iff.mp h
      obtain ⟨room, rfl⟩ := grow_eq_some growth
      cases eq
      refine ⟨l.blocks, _, [], rfl,
        .appended ?_ (Word.isLeast_roundUp (by decide) l.brk) rfl room⟩
      simpa only [List.find?_eq_none, serves_iff] using found

namespace Chooses

variable (h : l.Chooses required taken pre b rest)

include h

theorem blocks : taken.blocks = pre ++ b :: rest := by
  cases h with
  | first listed => exact listed
  | appended => rfl

theorem suits : b.Suits required := by
  cases h with
  | first _ suits => exact suits
  | @appended o size _ _ extent =>
      refine ⟨rfl, show required ≤ size from ?_⟩
      split at extent <;> omega

theorem apart (apart : Apart l.blocks) : Apart pre ∧ Apart (b :: rest) := by
  cases h with
  | first listed =>
      rw [listed] at apart
      exact ⟨apart.left_of_append, apart.right_of_append⟩
  | appended => exact ⟨apart, List.isChain_singleton _⟩

theorem ascending (ascending : Ascending 0 l.brk l.blocks) (grid : 32 ∣ required)
    (large : 32 ≤ required) : Ascending 0 taken.brk taken.blocks := by
  cases h with
  | first => exact ascending
  | @appended o size _ start extent =>
      obtain ⟨gridStart, low⟩ := start.1
      have grid : 32 ∣ size := by split at extent <;> omega
      have large : 32 ≤ size := by split at extent <;> omega
      exact ascending_append.mpr ⟨o, ascending.mono (Nat.le_refl 0) low, Nat.le_refl o, gridStart,
        grid, large, Nat.le_refl _⟩

theorem base : taken.base = l.base := by
  cases h <;> rfl

theorem listed : b ∈ taken.blocks := by
  simp [h.blocks]

theorem room : 0 + required ≤ b.size := by
  rw [Nat.zero_add]
  exact h.suits.2

theorem blocks_taken (apart : Apart l.blocks) (ascending : Ascending 0 l.brk l.blocks)
    (grid : 32 ∣ required) (large : 32 ≤ required) :
    (taken.replace b.offset (·.pieces 0 required)).blocks =
      pre ++ (b.occupied required ++ rest) := by
  obtain ⟨front, back⟩ := h.apart apart
  obtain ⟨free, enough⟩ := h.suits
  have whole := h.blocks ▸ h.ascending ascending grid large
  rw [replace, withBlocks, h.blocks, replaceAt_append whole, List.append_assoc,
    compact_pieces_append h.room, compact_space_append back free, space_served, List.append_nil,
    compact_eq_self front, occupied_eq_served enough]
  rfl

/-- What is cut from the chosen block in two steps is one block, with space on both sides of it. -/
theorem blocks_aligned {own : Nat} (apart : Apart l.blocks) (ascending : Ascending 0 l.brk l.blocks)
    (grid : 32 ∣ required) (large : 32 ≤ required) (room : gap + own ≤ required) :
    let n := served (served b 0 required) gap own
    ((taken.replace b.offset (·.pieces 0 required)).replace b.offset (·.pieces gap own)).blocks =
      carved pre b n rest := by
  intro n
  obtain ⟨front, back⟩ := h.apart apart
  obtain ⟨free, enough⟩ := h.suits
  let c := served b 0 required
  have second : gap + own ≤ c.size := Nat.le_trans room (le_size_served h.room)
  have cut : (taken.replace b.offset (·.pieces 0 required)).blocks =
      pre ++ c :: (space c.stop b.stop ++ rest) := by
    rw [h.blocks_taken apart ascending grid large, occupied_eq_served enough, List.cons_append]
  have whole : Ascending 0 taken.brk (pre ++ c :: (space c.stop b.stop ++ rest)) := by
    rw [← cut]
    exact ascending_replace_pieces (h.ascending ascending grid large) h.listed
      (Nat.dvd_zero 32) grid large h.room
  have replaced : replaceAt b.offset (·.pieces gap own)
      (pre ++ c :: (space c.stop b.stop ++ rest)) = _ := replaceAt_append whole _
  have low : b.offset ≤ n.offset := Nat.le_add_right _ _
  rw [replace, withBlocks, cut, replaced, List.append_assoc, compact_pieces_append second,
    compact_space_space (stop_served_le second) (stop_served_le h.room),
    compact_space_append back free, carved, ← compact_append_space front low]
  rfl

end Chooses

theorem take_eq_none_iff : l.take required = none ↔ l.find required = none := by
  rw [take]
  cases l.find required <;> simp

theorem allocate_eq_none_iff (least : IsLeast {m | 32 ∣ m ∧ size + 32 ≤ m} required) :
    l.allocate size = none ↔ l.Exhausted required := by
  rw [allocate, requiredSize_eq least, Exhausted, ← find_eq_none_iff, ← take_eq_none_iff]
  by_cases word : required < Word.limit
  · simp [word]
  · simp [word, Nat.le_of_not_lt word]

theorem chooses_of_take (ascending : Ascending 0 l.brk l.blocks)
    (h : l.take required = some (o, l')) :
    ∃ taken pre b rest, l.Chooses required taken pre b rest ∧ o = b.offset ∧
      l' = taken.replace b.offset (·.pieces 0 required) := by
  simp only [take, Option.bind_eq_bind, Option.bind_eq_some_iff, Prod.exists] at h
  obtain ⟨_, taken, found, eq⟩ := h
  obtain ⟨pre, b, rest, rfl, chooses⟩ := chooses_of_find ascending found
  cases eq
  exact ⟨taken, pre, b, rest, chooses, rfl, rfl⟩

/-- An allocation that succeeds takes the block that is chosen. -/
theorem exists_chooses (least : IsLeast {m | 32 ∣ m ∧ size + 32 ≤ m} required)
    (ascending : Ascending 0 l.brk l.blocks) (h : l.allocate size = some (o, l')) :
    ∃ taken pre b rest, l.Chooses required taken pre b rest ∧ o = b.offset ∧
      l' = taken.replace b.offset (·.pieces 0 required) := by
  rw [allocate, requiredSize_eq least] at h
  split at h
  · exact chooses_of_take ascending h
  · cases h

theorem requiredSize_mono {size' : Nat} (le : size ≤ size')
    (h : Allocator.requiredSize size' = some padded) :
    ∃ required, Allocator.requiredSize size = some required := by
  have least := Word.isLeast_roundUp (show 0 < 32 by decide) (size + 32)
  have least' := Word.isLeast_roundUp (show 0 < 32 by decide) (size' + 32)
  rw [requiredSize_eq least'] at h
  split at h
  · next word =>
      have smaller := least.2 ⟨least'.1.1, Nat.le_trans (by omega) least'.1.2⟩
      exact ⟨_, (requiredSize_eq least).trans (if_pos (Nat.lt_of_le_of_lt smaller word))⟩
  · cases h

/-- An aligned allocation fails if and only if that of the alignment more bytes does. -/
theorem allocateAligned_eq_none_iff : l.allocateAligned alignment size = none ↔
    Word.limit ≤ size + alignment ∨ l.allocate (size + alignment) = none := by
  by_cases word : size + alignment < Word.limit
  · have sum : Word.add? size alignment = some (size + alignment) := if_pos word
    simp only [Nat.not_le.mpr word, false_or, allocateAligned, allocate, sum, Option.bind_eq_bind,
      Option.bind_some]
    cases sized : Allocator.requiredSize (size + alignment) with
    | none => cases Allocator.requiredSize size <;> rfl
    | some padded =>
        obtain ⟨required, small⟩ := requiredSize_mono (Nat.le_add_right size alignment) sized
        rw [small]
        cases taken : l.take padded <;> simp [taken]
  · have none : Word.add? size alignment = none := if_neg word
    rw [allocateAligned, none]
    cases Allocator.requiredSize size <;> simp [Nat.le_of_not_lt word]

/-- The block for an aligned payload is cut in two steps out of the one that is chosen. -/
theorem exists_chooses_aligned (wide : 32 ∣ alignment) (positive : 0 < alignment)
    (least : IsLeast {m | 32 ∣ m ∧ size + alignment + 32 ≤ m} padded)
    (ascending : Ascending 0 l.brk l.blocks)
    (h : l.allocateAligned alignment size = some (o, l')) :
    ∃ taken pre b rest gap required, l.Chooses padded taken pre b rest ∧ o = b.offset + gap ∧
      l' = (taken.replace b.offset (·.pieces 0 padded)).replace b.offset
        (·.pieces gap required) ∧
      Allocator.requiredSize size = some required ∧ gap + required ≤ padded ∧
      IsLeast {m | alignment ∣ m ∧ l.base + (b.offset + 32) ≤ m} (l.base + (o + 32)) := by
  obtain ⟨required, enough, _, _, gap, sized, padding, cut, rounded, small, rfl, rfl⟩ :=
    (allocateAligned_eq_some_iff positive).mp h
  have sum := padded_eq wide sized padding
  obtain ⟨_, added, sized'⟩ := Option.bind_eq_some_iff.mp padding
  obtain ⟨rfl, -⟩ := Word.add?_eq_some_iff.mp added
  obtain rfl : padded = enough := by
    rw [requiredSize_eq least] at sized'
    split at sized' <;> cases sized'
    rfl
  obtain ⟨taken, pre, b, rest, chooses, rfl, rfl⟩ := chooses_of_take ascending cut
  have address : l.base + (b.offset + gap + 32) =
      Word.roundUp (l.base + (b.offset + 32)) alignment := by omega
  refine ⟨taken, pre, b, rest, gap, required, chooses, rfl, rfl, sized, by omega, ?_⟩
  rw [address]
  exact Word.isLeast_roundUp positive _

/-- The block of a payload of so many bytes at the first multiple of the alignment in another one.
It has room for no more than a header besides. -/
structure Aligned (alignment size base : Nat) (b n : Block) : Prop where
  allocated : n.allocated = true
  enough : size + 32 ≤ n.size
  tight : n.size ≤ size + 95
  low : b.offset ≤ n.offset
  high : n.stop ≤ b.stop
  first : IsLeast {m | alignment ∣ m ∧ base + (b.offset + 32) ≤ m} (base + (n.offset + 32))

theorem exists_carved (wide : 32 ∣ alignment) (positive : 0 < alignment)
    (least : IsLeast {m | 32 ∣ m ∧ size + alignment + 32 ≤ m} padded) (apart : Apart l.blocks)
    (ascending : Ascending 0 l.brk l.blocks)
    (h : l.allocateAligned alignment size = some (o, l')) :
    ∃ taken pre b n rest, l.Chooses padded taken pre b rest ∧ l'.brk = taken.brk ∧
      l'.base = l.base ∧ l'.blocks = carved pre b n rest ∧ n.offset = o ∧
      Aligned alignment size l.base b n := by
  obtain ⟨taken, pre, b, rest, gap, required, chooses, rfl, rfl, sized, room, first⟩ :=
    exists_chooses_aligned wide positive least ascending h
  obtain ⟨-, large, small⟩ := requiredSize_eq_some sized
  have part : gap + required ≤ (served b 0 padded).size :=
    Nat.le_trans room (le_size_served chooses.room)
  have tight := size_served_le (served b 0 padded) gap required
  have listed := chooses.blocks_aligned apart ascending least.1.1
    (Nat.le_of_add_left_le least.1.2) room
  refine ⟨taken, pre, b, _, rest, chooses, rfl, chooses.base, listed, rfl, ?_⟩
  exact {
    allocated := rfl
    enough := Nat.le_trans large (le_size_served part)
    tight := by omega
    low := Nat.le_add_right _ _
    high := Nat.le_trans (stop_served_le part) (stop_served_le chooses.room)
    first := first }

end Layout

end Confine
