import Confine.Proofs.Layout.Placing

/-! # Undoing an allocation

A block that is freed is merged with what was cut off it, so that the list is the one that the block
was found in.  `Undoable` says so of an attempt to allocate, in whichever way it cuts the block.
-/

namespace Confine

open Block

namespace Block

variable {b : Block} {bs : List Block} {gap required : Nat}

/-- A block whose allocated piece is freed again is as if it had been freed as a whole. -/
theorem compact_freed_pieces (room : gap + required ≤ b.size) (positive : 0 < required)
    (bs : List Block) :
    compact ((b.pieces gap required).map (freed (· = b.offset + gap)) ++ bs) =
      compact ({ b with allocated := false } :: bs) := by
  let n := Layout.served b gap required
  have kept (start stop : Nat) :
      (space start stop).map (freed (· = b.offset + gap)) = space start stop :=
    map_freed_eq_self fun c hc _ => by rw [(mem_space hc).1]
  have freed : freed (· = b.offset + gap) n = { n with allocated := false } := if_pos rfl
  have size : 0 < n.size := Nat.lt_of_lt_of_le positive (le_size_served room)
  have within : n.stop ≤ b.stop := stop_served_le room
  have low : b.offset ≤ n.offset := Nat.le_add_right _ _
  have middle : n.offset ≤ n.stop := Nat.le_add_right _ _
  have whole : [{ b with allocated := false }] = space b.offset b.stop :=
    eq_space rfl (show 0 < b.size by omega)
  have part : [{ n with allocated := false }] = space n.offset n.stop := eq_space rfl size
  rw [pieces_eq_served room, List.map_append, List.map_cons, kept, kept, freed,
    ← List.singleton_append, part, List.append_assoc, List.append_assoc,
    compact_append_congr _ (compact_space_space middle within bs),
    compact_space_space low (Nat.le_trans middle within), ← whole]
  rfl

theorem exists_suits_absorb (h : b.Suits required ∨ ∃ c ∈ bs, c.Suits required) :
    ∃ c ∈ b.absorb bs, c.Suits required := by
  cases bs with
  | nil =>
      rcases h with suits | ⟨c, hc, -⟩
      · exact ⟨b, List.mem_singleton_self b, suits⟩
      · cases hc
  | cons d rest =>
      simp only [absorb]
      split
      · next joins =>
          rcases h with suits | ⟨c, hc, suits⟩
          · exact ⟨_, List.mem_cons_self, joins.1, Nat.le_add_right_of_le suits.2⟩
          · cases hc with
            | head => exact ⟨_, List.mem_cons_self, joins.1, Nat.le_add_left_of_le suits.2⟩
            | tail _ hc => exact ⟨c, List.mem_cons_of_mem _ hc, suits⟩
      · rcases h with suits | ⟨c, hc, suits⟩
        · exact ⟨b, List.mem_cons_self, suits⟩
        · exact ⟨c, List.mem_cons_of_mem _ hc, suits⟩

theorem exists_suits_compact (h : ∃ b ∈ bs, b.Suits required) :
    ∃ b ∈ compact bs, b.Suits required := by
  induction bs with
  | nil => exact h
  | cons b rest ih =>
      apply exists_suits_absorb
      obtain ⟨c, hc, suits⟩ := h
      cases hc with
      | head => exact .inl suits
      | tail _ hc => exact .inr (ih ⟨c, hc, suits⟩)

end Block

namespace Layout

variable {l l' taken : Layout} {b : Block} {serving : Layout → Option (Nat × Layout)}
  {o size alignment gap required padded : Nat}

theorem free_replace_pieces {t : Nat} (ascending : Ascending 0 t l.blocks) (hb : b ∈ l.blocks)
    (room : gap + required ≤ b.size) (positive : 0 < required) :
    (l.replace b.offset (·.pieces gap required)).free (b.offset + gap) = l.free b.offset := by
  obtain ⟨pre, rest, eq⟩ := List.append_of_mem hb
  have whole := eq ▸ ascending
  obtain ⟨m, front, low, -, -, -, back⟩ := ascending_append.mp whole
  -- no other block starts in the one that is cut
  have before (o : Nat) (inside : b.Covers o) : pre.map (freed (· = o)) = pre := by
    apply map_freed_eq_self
    intro c hc here
    have := front.mem hc
    simp only [Block.stop] at this
    omega
  have behind (o : Nat) (inside : b.Covers o) : rest.map (freed (· = o)) = rest := by
    apply map_freed_eq_self
    intro c hc here
    have := (back.mem hc).1
    omega
  have first : b.Covers b.offset := ⟨Nat.le_refl _, by simp only [Block.stop]; omega⟩
  have piece : b.Covers (b.offset + gap) := ⟨by omega, by simp only [Block.stop]; omega⟩
  have self : freed (· = b.offset) b = { b with allocated := false } := if_pos rfl
  simp only [free_eq_freeAll, freeAll, replace, withBlocks]
  rw [compact_map_compact fun _ => freed_of_free, eq, replaceAt_append whole, List.map_append,
    List.map_append, before _ piece, behind _ piece, List.map_append, List.map_cons,
    before _ first, behind _ first, self, List.append_assoc,
    compact_append_congr pre (compact_freed_pieces room positive rest)]

theorem free_of_free {t : Nat} (ascending : Ascending 0 t l.blocks) (hb : b ∈ l.blocks)
    (free : b.allocated = false) : l.free b.offset = l.withBlocks (compact l.blocks) := by
  have same : l.blocks.map (freed (· = b.offset)) = l.blocks :=
    map_freed_eq_self fun c hc here => ascending.eq_of_offset hc hb here ▸ free
  rw [free_eq_freeAll, freeAll, same]

/-- What is left when a block is freed right after it was taken: the layout from before, or that
with free space behind it, up to where the break has moved to. -/
inductive Undone (l : Layout) (required brk : Nat) (freed : Layout) : Prop
  | same (unmoved : brk = l.brk) (eq : freed = l)
  | grown {o : Nat} (none : ∀ c ∈ l.blocks, ¬c.Suits required) (moved : l.brk < brk)
      (start : IsLeast {m | 32 ∣ m ∧ l.brk ≤ m} o)
      (blocks : freed.blocks = extended l.blocks o brk)

/-- An attempt that succeeds if and only if a block of so many bytes is found, and that freeing what
it returns makes undone, up to merging that block with its neighbours. -/
structure Undoable (serving : Layout → Option (Nat × Layout)) (required : Nat) : Prop where
  grid : 32 ∣ required
  large : 32 ≤ required
  full : ∀ l, l.find required = none → serving l = none
  found : ∀ l taken o, Ascending 0 l.brk l.blocks → l.find required = some (o, taken) →
    ∃ n l', serving l = some (n, l') ∧ l'.brk = taken.brk ∧ l'.free n = taken.free o

/-- A block that was found is the same afterwards whether or not it was cut before it is freed. -/
theorem free_of_find (ascending : Ascending 0 l.brk l.blocks) (grid : 32 ∣ required)
    (large : 32 ≤ required) (found : l.find required = some (o, taken)) :
    (taken.replace o (·.pieces 0 required)).free o = taken.free o := by
  obtain ⟨pre, b, rest, rfl, chooses⟩ := chooses_of_find ascending found
  exact free_replace_pieces (chooses.ascending ascending grid large) chooses.listed chooses.room
    (by omega)

theorem undoable_allocate (sized : Allocator.requiredSize size = some required) :
    Undoable (·.allocate size) required := by
  obtain ⟨grid, large, -⟩ := requiredSize_eq_some sized
  have header : 32 ≤ required := by omega
  constructor
  · exact grid
  · exact header
  · intro l none
    simp [allocate, sized, take, none]
  · intro l taken o ascending found
    have served : l.allocate size = some (o, taken.replace o (·.pieces 0 required)) := by
      simp [allocate, sized, take, found]
    exact ⟨o, _, served, rfl, free_of_find ascending grid header found⟩

theorem undoable_allocateAligned (wide : 32 ∣ alignment) (positive : 0 < alignment)
    (sized : Allocator.requiredSize size = some required)
    (padding : (Word.add? size alignment >>= Allocator.requiredSize) = some padded) :
    Undoable (·.allocateAligned alignment size) padded := by
  obtain ⟨gridR, large, -⟩ := requiredSize_eq_some sized
  have sum := padded_eq wide sized padding
  have grid : 32 ∣ padded := by omega
  have header : 32 ≤ padded := by omega
  constructor
  · exact grid
  · exact header
  · intro l none
    simp only [Option.bind_eq_bind] at padding
    simp [allocateAligned, sized, padding, take, none]
  · intro l taken o ascending found
    have cut : l.take padded = some (o, taken.replace o (·.pieces 0 padded)) := by
      simp [take, found]
    obtain ⟨n, rfl, enough, takes, ascending'⟩ := take_eq_some ascending grid header cut
    have hn := (takes.mem n takes.allocated).mpr (.inr rfl)
    obtain ⟨gap, rounded, small, -⟩ := gap_lt (l.base + (n.offset + 32)) positive
    have served := (allocateAligned_eq_some_iff positive).mpr
      ⟨required, padded, _, _, gap, sized, padding, cut, rounded, small, rfl, rfl⟩
    -- the block was cut twice, and the free undoes the second cut first
    have freed := free_replace_pieces ascending' hn (show gap + required ≤ n.size by omega)
      (by omega)
    exact ⟨_, _, served, rfl, freed.trans (free_of_find ascending grid header found)⟩

namespace Undoable

variable (h : Undoable serving required)

include h

theorem undone (ascending : Ascending 0 l.brk l.blocks) (apart : Apart l.blocks)
    (served : serving l = some (o, l')) :
    l.Undone required l'.brk (l'.free o) ∧ ∃ c ∈ (l'.free o).blocks, c.Suits required := by
  have some : l.find required ≠ none := fun none => by simp [h.full l none] at served
  obtain ⟨⟨c, taken⟩, found⟩ := Option.ne_none_iff_exists'.mp some
  obtain ⟨n, l₁, again, brk, freed⟩ := h.found l taken c ascending found
  cases served.symm.trans again
  obtain ⟨pre, b, rest, rfl, chooses⟩ := chooses_of_find ascending found
  have whole := chooses.ascending ascending h.grid h.large
  rw [brk, freed, free_of_free whole chooses.listed chooses.suits.1]
  refine ⟨?_, exists_suits_compact ⟨b, chooses.listed, chooses.suits⟩⟩
  cases chooses with
  | first =>
      rw [compact_eq_self apart]
      exact .same rfl rfl
  | @appended o size none start extent =>
      have positive : o < o + size := by
        have := h.large
        split at extent <;> omega
      refine .grown none (Nat.lt_of_le_of_lt start.1.2 positive) start ?_
      rw [← compact_append_space apart (Nat.le_of_lt positive), space_of_lt positive,
        Nat.add_sub_cancel_left]
      rfl

/-- A layout that has a block which is large enough is the same after an allocation and a free. -/
theorem again (ascending : Ascending 0 l.brk l.blocks) (apart : Apart l.blocks)
    (suits : ∃ c ∈ l.blocks, c.Suits required) :
    ∃ o l', serving l = some (o, l') ∧ l'.brk = l.brk ∧ l'.free o = l := by
  obtain ⟨c, hc, suits⟩ := suits
  have some : l.find required ≠ none := fun none => (find_eq_none_iff.mp none).1 c hc suits
  obtain ⟨⟨_, taken⟩, found⟩ := Option.ne_none_iff_exists'.mp some
  obtain ⟨o, l', served, -⟩ := h.found l taken _ ascending found
  cases (h.undone ascending apart served).1 with
  | same unmoved eq => exact ⟨o, l', served, unmoved, eq⟩
  | grown none => exact absurd suits (none c hc)

end Undoable

end Layout

end Confine
