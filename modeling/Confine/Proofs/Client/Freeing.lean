import Confine.Proofs.Client.Isolation
import Confine.Proofs.Layout.Freeing

/-! # The order of frees

A program may free its blocks in any order.  Each free succeeds, since the blocks that are not freed
yet stay in the list, and the list in which all of them end depends on which blocks they are only.
-/

namespace Confine

open Block Layout Allocator

namespace Allocator

variable {a : Allocator} {l : Layout} {ps : List Nat}

def freeEach (ps : List Nat) : Action Unit :=
  ps.forM free

theorem freeEach_cons (p : Nat) (rest : List Nat) :
    freeEach (p :: rest) = free p >>= fun _ => freeEach rest := rfl

theorem freeEach_run (window : Nat → Prop) (h : Realizes a l) (apart : Apart l.blocks)
    (live : ∀ p ∈ ps, ∃ b ∈ l.blocks, b.allocated = true ∧ p = l.address b)
    (distinct : ps.Nodup) :
    ∃ a', freeEach ps a = (.ok (), a') ∧
      Evolves window l (l.freeAll fun o => l.base + (o + 32) ∈ ps) a a' := by
  induction ps generalizing a l with
  | nil =>
      refine ⟨a, rfl, ?_⟩
      rw [freeAll_of_none apart fun _ => List.not_mem_nil]
      exact .refl window h
  | cons p rest ih =>
      obtain ⟨fresh, different⟩ := List.nodup_cons.mp distinct
      obtain ⟨b, hb, allocated, rfl⟩ := live p List.mem_cons_self
      obtain ⟨a₁, first, evolves⟩ := free_run window h apart hb allocated
      have frees := free_frees l b.offset
      -- The blocks that are still to be freed stay as they are, so the hypothesis applies to them.
      have live' : ∀ q ∈ rest, ∃ c ∈ (l.free b.offset).blocks,
          c.allocated = true ∧ q = (l.free b.offset).address c := by
        intro q hq
        obtain ⟨c, hc, marked, rfl⟩ := live q (List.mem_cons_of_mem _ hq)
        have other : c.offset ≠ b.offset := by
          intro same
          apply fresh
          rwa [Layout.address, ← same]
        exact ⟨c, (frees.mem c marked).mpr ⟨hc, other⟩, marked, rfl⟩
      obtain ⟨a', others, evolves'⟩ := ih evolves.realizes frees.apart live' different
      refine ⟨a', ?_, ?_⟩
      · rw [h.base] at first
        rw [freeEach_cons, Layout.address, bind_ok first]
        exact others
      · have whole : (l.free b.offset).freeAll (fun o => l.base + (o + 32) ∈ rest) =
            l.freeAll fun o => l.base + (o + 32) ∈ l.address b :: rest := by
          rw [free_eq_freeAll, freeAll_freeAll]
          apply freeAll_congr
          intro o
          rw [List.mem_cons, Layout.address]
          apply or_congr_left
          omega
        exact whole ▸ evolves.trans evolves'

end Allocator

namespace Client

variable {s : Client} {l : Layout} {heap : Heap} {ps : List Nat}

/-- Blocks of a program may be freed in any order.  Every order ends in the same list, in which the
other live blocks are as they were and each longest stretch of free blocks that touch has become one
block. -/
structure FreesTo (s : Client) (ps : List Nat) (before after : List Block) : Prop where
  walk : s.allocator.blocks = .ok before
  merged : after = (stretches
    (before.map (freed fun o => s.allocator.heap.base + (o + 32) ∈ ps))).flatMap fuse
  others : ∀ b, b.allocated = true →
    (b ∈ after ↔ b ∈ before ∧ s.allocator.heap.base + (b.offset + 32) ∉ ps)
  ends : ∀ qs, qs.Perm ps → ∃ a', freeEach qs s.allocator = (.ok (), a') ∧ a'.WellFormed after ∧
    a'.heap.brk = s.allocator.heap.brk ∧ ∀ i, s.Owns i → a'.heap.memory.get i = s.byte i

/-- The order in which an honest program frees its blocks makes no difference. -/
theorem freesTo_of_honest (fresh : heap.Fresh) (run : Reaches Honest (start heap) s)
    (live : ∀ p ∈ ps, p ∈ s.live) (distinct : ps.Nodup) :
    ∃ before after, s.FreesTo ps before after := by
  obtain ⟨l, sound⟩ := sound_of_honest fresh run
  have base := sound.realizes.base
  have merged := compact_eq_stretches
    (l.blocks.map (freed fun o => s.allocator.heap.base + (o + 32) ∈ ps))
  refine ⟨l.blocks, _, (sound.realizes.wellFormed sound.books.apart).walk, rfl, ?_, ?_⟩
  · intro b allocated
    rw [← merged, mem_compact_of_allocated allocated, mem_map_freed allocated]
  · intro qs perm
    have named : ∀ q ∈ qs, ∃ b ∈ l.blocks, b.allocated = true ∧ q = l.address b := by
      intro q hq
      exact (sound.books.mem_live q).mp (live q (perm.mem_iff.mp hq))
    obtain ⟨a', freed, evolves⟩ := freeEach_run (fun _ => False) sound.realizes
      sound.books.apart named (perm.nodup_iff.mpr distinct)
    rw [freeAll_congr fun o => perm.mem_iff, ← base] at evolves
    refine ⟨a', freed, ?_, ?_, ?_⟩
    · rw [← merged]
      exact evolves.realizes.wellFormed (apart_compact _)
    · exact evolves.realizes.brk.trans sound.realizes.brk.symm
    · intro i owned
      exact evolves.bytes i (sound.cell_of_owned owned).1 id

/-- A program with two blocks in front of a span that it holds, and one behind it. -/
def neighbours : Client :=
  ((tenant.serve (.operation (.allocate 65216))).serve (.operation (.sbrk 64))).serve
    (.operation (.allocate 32))

theorem neighbours_reached : Reaches Honest (start mebibyte) neighbours := by
  unfold neighbours
  exact .step (.step (.step tenant_reached (honest_of_no_pointer rfl)) (honest_of_no_pointer rfl))
    (honest_of_no_pointer rfl)

theorem neighbours_live : neighbours.live = [2 ^ 32 + 65632, 2 ^ 32 + 320, 2 ^ 32 + 32] := by
  decide +kernel

/-- The span keeps the last block apart from the stretch that the others become. -/
theorem freesTo_neighbours : ∃ before after, neighbours.FreesTo neighbours.live before after :=
  freesTo_of_honest mebibyte_fresh neighbours_reached (fun _ => id)
    (by rw [neighbours_live]; decide)

end Client

end Confine
