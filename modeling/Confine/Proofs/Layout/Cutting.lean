import Confine.Proofs.Layout.Accounting
import Confine.Proofs.Layout.Freeing

/-! # Cutting a free block

What becomes of a list when a free block in it is cut, in terms of the space between two offsets.
The space on both sides of the allocated piece is free again, and free space is merged however it
was divided.
-/

namespace Confine

namespace Block

open Layout (served)

variable {b c n : Block} {bs cs pre rest : List Block} {start middle stop gap required : Nat}

/-- The block is free and has at least so many bytes, header included. -/
def Suits (required : Nat) (b : Block) : Prop :=
  b.allocated = false ∧ required ≤ b.size

/-- What becomes of a free block when `required` bytes of it are allocated.  What is left over is a
free block if it can hold more than a header, and part of the allocated one otherwise. -/
def occupied (b : Block) (required : Nat) : List Block :=
  if b.size ≤ required + 32 then [⟨b.offset, b.size, true⟩]
  else [⟨b.offset, required, true⟩, ⟨b.offset + required, b.size - required, false⟩]

/-- The free space between two offsets, as one block if there is any. -/
def space (start stop : Nat) : List Block :=
  if start < stop then [⟨start, stop - start, false⟩] else []

/-- A list with the free space between two offsets behind it: a block of its own, or a part of the
last block if that is free and touches the space. -/
def extended (bs : List Block) (start stop : Nat) : List Block :=
  match bs.getLast? with
  | none => space start stop
  | some b =>
    if b.allocated = false ∧ b.stop = start then
      bs.dropLast ++ [⟨b.offset, stop - b.offset, false⟩]
    else bs ++ space start stop

theorem serves_iff : Layout.serves required b = true ↔ b.Suits required := by
  simp [Layout.serves, Suits]

theorem space_of_lt (h : start < stop) : space start stop = [⟨start, stop - start, false⟩] :=
  if_pos h

theorem space_of_le (h : stop ≤ start) : space start stop = [] :=
  if_neg (Nat.not_lt.mpr h)

/-- Merging what joins in the back of a list before the whole makes no difference. -/
theorem compact_append_congr (pre : List Block) (h : compact bs = compact cs) :
    compact (pre ++ bs) = compact (pre ++ cs) := by
  induction pre with
  | nil => exact h
  | cons b rest ih => rw [List.cons_append, List.cons_append, compact, compact, ih]

theorem compact_space_space (low : start ≤ middle) (high : middle ≤ stop) (bs : List Block) :
    compact (space start middle ++ (space middle stop ++ bs)) =
      compact (space start stop ++ bs) := by
  by_cases left : start < middle
  · by_cases right : middle < stop
    · have joins : Joins ⟨start, middle - start, false⟩ ⟨middle, stop - middle, false⟩ :=
        ⟨rfl, rfl, Nat.add_sub_cancel' low⟩
      have size : middle - start + (stop - middle) = stop - start := by omega
      rw [space_of_lt left, space_of_lt right, space_of_lt (Nat.lt_trans left right)]
      simp only [List.singleton_append, compact, ← joins.absorb_absorb, size]
    · have same : middle = stop := by omega
      rw [same, space_of_le (Nat.le_refl stop), List.nil_append]
  · have same : start = middle := by omega
    rw [same, space_of_le (Nat.le_refl middle), List.nil_append]

theorem compact_append_space (apart : Apart bs) (h : start ≤ stop) :
    compact (bs ++ space start stop) = extended bs start stop := by
  have alone : compact (space start stop) = space start stop := by
    unfold space
    split <;> rfl
  rcases List.eq_nil_or_concat' bs with rfl | ⟨front, b, rfl⟩
  · exact alone
  · rw [List.append_assoc, List.singleton_append, compact_append apart, alone, extended,
      List.getLast?_concat]
    dsimp only
    by_cases touches : b.allocated = false ∧ b.stop = start
    · obtain ⟨free, touch⟩ := touches
      rw [if_pos ⟨free, touch⟩, List.dropLast_concat]
      simp only [Block.stop] at touch
      rcases Nat.lt_or_eq_of_le h with positive | empty
      · have merged : b.absorb [⟨start, stop - start, false⟩] = _ := if_pos ⟨free, rfl, touch⟩
        have size : b.size + (stop - start) = stop - b.offset := by omega
        rw [space_of_lt positive, merged, size, free]
      · have size : b.size = stop - b.offset := by omega
        rw [space_of_le (Nat.le_of_eq empty.symm), ← size, ← free]
        rfl
    · rw [if_neg touches, List.append_assoc]
      congr 1
      apply absorb_eq_self
      unfold space
      split
      · exact List.isChain_pair.mpr fun joins => touches ⟨joins.1, joins.2.2⟩
      · exact List.isChain_singleton _

theorem le_size_served (room : gap + required ≤ b.size) :
    required ≤ (served b gap required).size := by
  simp only [served]
  split <;> omega

theorem size_served_le (b : Block) (gap required : Nat) :
    (served b gap required).size ≤ required + 32 := by
  simp only [served]
  split <;> omega

theorem stop_served_le (room : gap + required ≤ b.size) :
    (served b gap required).stop ≤ b.stop := by
  simp only [served, Block.stop]
  split <;> omega

/-- The pieces of a block are the allocated one and the space on both sides of it. -/
theorem pieces_eq_served (room : gap + required ≤ b.size) :
    b.pieces gap required = space b.offset (served b gap required).offset ++
      served b gap required :: space (served b gap required).stop b.stop := by
  have front : (if gap = 0 then [] else [⟨b.offset, gap, false⟩]) =
      space b.offset (b.offset + gap) := by
    by_cases none : gap = 0
    · rw [if_pos none, space_of_le (by omega)]
    · rw [if_neg none, space_of_lt (by omega), Nat.add_sub_cancel_left]
  rw [pieces, front, served]
  by_cases small : b.size - gap ≤ required + 32
  · have none : space (b.offset + gap + (b.size - gap)) b.stop = [] :=
      space_of_le (by simp only [Block.stop]; omega)
    simp only [if_pos small, Block.stop] at none ⊢
    rw [none]
  · have left : space (b.offset + gap + required) b.stop =
        [⟨b.offset + gap + required, b.size - gap - required, false⟩] := by
      rw [space_of_lt (by simp only [Block.stop]; omega)]
      congr 2
      simp only [Block.stop]
      omega
    simp only [if_neg small, Block.stop] at left ⊢
    rw [left]

theorem space_served (b : Block) (required : Nat) :
    space b.offset (served b 0 required).offset = [] :=
  space_of_le (Nat.le_refl _)

theorem occupied_eq_served (room : required ≤ b.size) :
    b.occupied required =
      served b 0 required :: space (served b 0 required).stop b.stop := by
  have pieces : b.pieces 0 required = b.occupied required := by
    simp only [pieces, occupied, if_true, List.nil_append, Nat.add_zero, Nat.sub_zero]
  rw [← pieces, pieces_eq_served (by omega), space_served, List.nil_append]

theorem eq_space (free : b.allocated = false) (positive : 0 < b.size) :
    [b] = space b.offset b.stop := by
  rw [space_of_lt (by simp only [Block.stop]; omega), Block.stop, Nat.add_sub_cancel_left, ← free]

theorem mem_space (h : b ∈ space start stop) : b = ⟨start, stop - start, false⟩ ∧ start < stop := by
  unfold space at h
  split at h
  · next positive => exact ⟨List.mem_singleton.mp h, positive⟩
  · cases h

theorem exists_mem_space {i : Nat} (low : start ≤ i) (high : i < stop) :
    ∃ f ∈ space start stop, f.allocated = false ∧ f.Covers i := by
  refine ⟨⟨start, stop - start, false⟩, ?_, rfl, low, ?_⟩
  · rw [space_of_lt (Nat.lt_of_le_of_lt low high)]
    exact List.mem_singleton_self _
  · simp only [Block.stop]
    omega

theorem exists_mem_extended {i : Nat} (bs : List Block) (low : start ≤ i) (high : i < stop) :
    ∃ f ∈ extended bs start stop, f.allocated = false ∧ f.Covers i := by
  obtain ⟨f, hf, inside⟩ := exists_mem_space low high
  unfold extended
  split
  · exact ⟨f, hf, inside⟩
  · next b last =>
      split
      · next touches =>
          have touch := touches.2
          simp only [Block.stop] at touch
          have before : b.offset ≤ i := by omega
          refine ⟨⟨b.offset, stop - b.offset, false⟩, by simp, rfl, before, ?_⟩
          simp only [Block.stop]
          omega
      · exact ⟨f, List.mem_append_right bs hf, inside⟩

theorem compact_space_append (apart : Apart (b :: rest)) (free : b.allocated = false)
    (start : Nat) : compact (space start b.stop ++ rest) = space start b.stop ++ rest := by
  apply compact_eq_self
  by_cases h : start < b.stop
  · rw [space_of_lt h]
    refine apart.imp_head ?_
    rintro c separate ⟨-, other, touch⟩
    simp only [Block.stop] at h touch
    exact separate ⟨free, other, by simp only [Block.stop]; omega⟩
  · rw [space_of_le (Nat.le_of_not_lt h)]
    exact apart.of_cons

/-- Cutting a block leaves the list behind it alone, and so it does the list before it unless there
is a gap. -/
theorem compact_pieces_append (room : gap + required ≤ b.size) (pre bs : List Block) :
    compact (pre ++ (b.pieces gap required ++ bs)) =
      compact (pre ++ space b.offset (served b gap required).offset) ++
        served b gap required :: compact (space (served b gap required).stop b.stop ++ bs) := by
  rw [pieces_eq_served room, List.append_assoc, List.cons_append, ← List.append_assoc,
    compact_append_cons rfl]

/-- A list in which a smaller block has taken the place of a free one.  The bytes on both sides of
it are free. -/
def carved (pre : List Block) (b n : Block) (rest : List Block) : List Block :=
  extended pre b.offset n.offset ++ n :: (space n.stop b.stop ++ rest)

/-- No byte of the free block is lost. -/
theorem exists_mem_carved {i : Nat} (pre rest : List Block) (inside : b.Covers i)
    (outside : ¬n.Covers i) : ∃ f ∈ carved pre b n rest, f.allocated = false ∧ f.Covers i := by
  obtain ⟨low, high⟩ := inside
  by_cases before : i < n.offset
  · obtain ⟨f, hf, free⟩ := exists_mem_extended pre low before
    exact ⟨f, List.mem_append_left _ hf, free⟩
  · have behind : n.stop ≤ i :=
      Nat.le_of_not_lt fun inside => outside ⟨Nat.le_of_not_lt before, inside⟩
    obtain ⟨f, hf, free⟩ := exists_mem_space behind high
    exact ⟨f, by simp [carved, hf], free⟩

end Block

end Confine
