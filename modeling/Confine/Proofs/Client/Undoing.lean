import Confine.Proofs.Client.Runs
import Confine.Proofs.Client.BlockList
import Confine.Proofs.Layout.Undoing
import Mathlib.Logic.Function.Iterate

/-! # Freeing what was just allocated

A free right after an allocation leaves the list as it was, or with one more stretch of free space
at its end if the break had to move.  The same allocation finds room there from then on, so that a
program that repeats the two never runs out of memory.
-/

namespace Confine

open Block Layout Allocator

namespace Layout

/-- What an allocation tries on a layout. -/
def attempt (l : Layout) : Operation Nat → Option (Nat × Layout)
  | .allocate size => l.allocate size
  | .allocateAligned alignment size =>
    if alignment ≤ 32 then l.allocate size else l.allocateAligned alignment size
  | _ => none

end Layout

/-- The operation allocates a block, at an alignment that is a power of two if at any. -/
inductive Operation.Allocates : Operation Nat → Prop
  | plain (size : Nat) : Allocates (.allocate size)
  | aligned {alignment : Nat} (power : alignment.isPowerOfTwo) (size : Nat) :
      Allocates (.allocateAligned alignment size)

theorem Layout.exists_undoable {l : Layout} {op : Operation Nat} (allocates : op.Allocates)
    (served : l.attempt op ≠ none) : ∃ required, Undoable (·.attempt op) required := by
  have plain (size : Nat) (served : l.allocate size ≠ none) :
      ∃ required, Undoable (·.allocate size) required := by
    cases sized : Allocator.requiredSize size with
    | none => simp [allocate, sized] at served
    | some required => exact ⟨required, undoable_allocate sized⟩
  cases allocates with
  | plain size => exact plain size served
  | @aligned alignment power size =>
      simp only [attempt] at served ⊢
      by_cases narrow : alignment ≤ 32
      · simp only [if_pos narrow] at served ⊢
        exact plain size served
      · simp only [if_neg narrow] at served ⊢
        have positive : 0 < alignment := by omega
        have wide := dvd_of_isPowerOfTwo (Word.isPowerOfTwo_iff.mpr power) (by omega)
        obtain ⟨_, some⟩ := Option.ne_none_iff_exists'.mp served
        obtain ⟨required, padded, -, -, -, sized, padding, -⟩ :=
          (allocateAligned_eq_some_iff positive).mp some
        exact ⟨padded, undoable_allocateAligned wide positive sized padding⟩

namespace Client

variable {s : Client} {l l' : Layout} {heap : Heap} {op : Operation Nat} {required o p : Nat}

def cycle (op : Operation Nat) (s : Client) : Client :=
  let t := s.serve (.operation op)
  match s.reply (.operation op) with
  | .address (some p) => t.serve (.operation (.free p))
  | _ => t

/-- The allocation succeeds and so does the free after it, and the break and the list are then as
given. -/
structure Cycles (s : Client) (op : Operation Nat) (p brk : Nat) (after : List Block) : Prop where
  replied : s.reply (.operation op) = .address (some p)
  freed : (s.serve (.operation op)).reply (.operation (.free p)) = .done
  taken : (s.serve (.operation op)).allocator.heap.brk = brk
  brk : (s.cycle op).allocator.heap.brk = brk
  list : (s.cycle op).allocator.WellFormed after

/-- A free right after an allocation succeeds.  The list is the one from before if the break did not
move, and has free space up to the new break behind it otherwise.  The same two operations succeed
any number of times, and neither move the break again nor change the list. -/
structure Undoes (s : Client) (op : Operation Nat) (p : Nat) (before after : List Block) :
    Prop where
  walk : s.allocator.WellFormed before
  first : s.Cycles op p (s.serve (.operation op)).allocator.heap.brk after
  unmoved : (s.serve (.operation op)).allocator.heap.brk = s.allocator.heap.brk → after = before
  moved : (s.serve (.operation op)).allocator.heap.brk ≠ s.allocator.heap.brk →
    s.allocator.heap.brk < (s.serve (.operation op)).allocator.heap.brk ∧
      ∃ o, IsLeast {m | 32 ∣ m ∧ s.allocator.heap.brk ≤ m} o ∧
        after = extended before o (s.serve (.operation op)).allocator.heap.brk
  repeats : ∀ k, ∃ q, ((cycle op)^[k] s).Cycles op q
    (s.serve (.operation op)).allocator.heap.brk after

namespace Sound

variable (h : Sound s l)

include h

theorem attempt (allocates : op.Allocates) : Advance s op l (l.granted (l.attempt op)) := by
  cases allocates with
  | plain size => exact h.allocate size
  | @aligned alignment power size =>
      have advance := h.allocateAligned alignment size
      simp only [Layout.answer, Word.isPowerOfTwo_iff.mpr power, Bool.not_true,
        Bool.false_eq_true, if_false] at advance
      simp only [Layout.attempt]
      split at advance
      · next narrow => rwa [if_pos narrow]
      · next wide => rwa [if_neg wide]

theorem cycle (allocates : op.Allocates) (served : l.attempt op = some (o, l')) :
    s.Cycles op (l.base + (o + 32)) l'.brk (l'.free o).blocks ∧
      Sound (s.cycle op) (l'.free o) := by
  have taking := h.attempt allocates
  simp only [served, granted] at taking
  have replied : s.reply (.operation op) = .address (some (l.base + (o + 32))) := taking.replied
  have live : l.base + (o + 32) ∈ (s.serve (.operation op)).live := by
    change _ ∈ liveAfter s.live op (s.reply (.operation op))
    rw [replied]
    cases allocates <;> exact List.mem_cons_self
  obtain ⟨b, hb, allocated, eq⟩ := taking.sound.block_of_live live
  rw [taking.evolves.base, h.realizes.base] at eq
  obtain rfl : o = b.offset := by omega
  have freeing := taking.sound.free_block hb allocated
  rw [taking.evolves.base, h.realizes.base] at freeing
  have same : s.cycle op =
      (s.serve (.operation op)).serve (.operation (.free (l.base + (b.offset + 32)))) := by
    rw [Client.cycle, replied]
  have after : Sound (s.cycle op) (l'.free b.offset) := same ▸ freeing.sound
  refine ⟨?_, after⟩
  exact {
    replied := replied
    freed := freeing.replied
    taken := taking.sound.realizes.brk
    brk := after.realizes.brk
    list := after.realizes.wellFormed (free_frees l' b.offset).apart }

/-- A heap with a block that is large enough keeps its layout over one allocation and free. -/
theorem cycle_again (allocates : op.Allocates) (undoable : Undoable (·.attempt op) required)
    (suits : ∃ c ∈ l.blocks, c.Suits required) :
    (∃ q, s.Cycles op q l.brk l.blocks) ∧ Sound (s.cycle op) l := by
  obtain ⟨o, l', served, unmoved, freed⟩ :=
    undoable.again h.realizes.ascending h.books.apart suits
  obtain ⟨cycles, after⟩ := h.cycle allocates served
  rw [unmoved, freed] at cycles
  rw [freed] at after
  exact ⟨⟨_, cycles⟩, after⟩

theorem iterate_cycle (allocates : op.Allocates) (undoable : Undoable (·.attempt op) required)
    (suits : ∃ c ∈ l.blocks, c.Suits required) (k : Nat) : Sound ((Client.cycle op)^[k] s) l := by
  induction k with
  | zero => exact h
  | succ k ih =>
      rw [Function.iterate_succ_apply']
      exact (ih.cycle_again allocates undoable suits).2

end Sound

/-- An honest program that frees what it was just given has the heap that it had before. -/
theorem undoes_of_honest (fresh : heap.Fresh) (run : Reaches Honest (start heap) s)
    (allocates : op.Allocates) (replied : s.reply (.operation op) = .address (some p)) :
    ∃ before after, s.Undoes op p before after := by
  obtain ⟨l, sound⟩ := sound_of_honest fresh run
  have ascending := sound.realizes.ascending
  have some : l.attempt op ≠ none := by
    intro none
    have advance := sound.attempt allocates
    rw [none] at advance
    cases replied.symm.trans advance.replied
  obtain ⟨⟨o, l'⟩, served⟩ := Option.ne_none_iff_exists'.mp some
  obtain ⟨required, undoable⟩ := exists_undoable allocates some
  obtain ⟨undone, suits⟩ := undoable.undone ascending sound.books.apart served
  obtain ⟨cycles, after⟩ := sound.cycle allocates served
  obtain rfl : p = l.base + (o + 32) := by
    cases replied.symm.trans cycles.replied
    rfl
  refine ⟨l.blocks, (l'.free o).blocks, ?_⟩
  constructor
  · exact sound.realizes.wellFormed sound.books.apart
  · rw [cycles.taken]
    exact cycles
  · rw [cycles.taken, sound.realizes.brk]
    intro unmoved
    cases undone with
    | same _ eq => rw [eq]
    | grown _ moved => exact absurd unmoved (Nat.ne_of_gt moved)
  · rw [cycles.taken, sound.realizes.brk]
    intro moved
    cases undone with
    | same unmoved => exact absurd unmoved moved
    | grown _ moved start blocks => exact ⟨moved, _, start, blocks⟩
  · rw [cycles.taken]
    intro k
    cases k with
    | zero => exact ⟨_, cycles⟩
    | succ k =>
        have settled := after.iterate_cycle allocates undoable suits k
        exact (settled.cycle_again allocates undoable suits).1

/-- An aligned block behind a break that is off the grid. -/
theorem undoes_off_grid :
    (Operation.allocateAligned 4096 65536).Allocates ∧
    (tenant.serve (.operation (.sbrk 10))).reply (.operation (.allocateAligned 4096 65536)) =
      .address (some (2 ^ 32 + 69632)) ∧
    ∃ before after, (tenant.serve (.operation (.sbrk 10))).Undoes
      (.allocateAligned 4096 65536) (2 ^ 32 + 69632) before after := by
  have power : (4096 : Nat).isPowerOfTwo := ⟨12, rfl⟩
  have replied : (tenant.serve (.operation (.sbrk 10))).reply
      (.operation (.allocateAligned 4096 65536)) = .address (some (2 ^ 32 + 69632)) := by
    decide +kernel
  exact ⟨.aligned power 65536, replied, undoes_of_honest mebibyte_fresh
    (.step tenant_reached (honest_of_no_pointer rfl)) (.aligned power 65536) replied⟩

end Client

end Confine
