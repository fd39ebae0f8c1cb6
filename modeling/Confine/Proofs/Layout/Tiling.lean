import Confine.Proofs.Allocating
import Confine.Proofs.Layout.Answers

/-! # Space and the break

What the operations do to the space of the blocks and to the break: an operation other than `sbrk`
makes the blocks grow or cuts them anew, and `sbrk` moves the break alone.  Blocks that leave no
offset below the break uncovered lie end to end.
-/

namespace Confine

open Block

namespace Block

variable {s t : Nat} {b : Block} {bs : List Block}

/-- The blocks lie end to end between two offsets. -/
def Contiguous (start stop : Nat) : List Block → Prop
  | [] => start = stop
  | b :: rest => b.offset = start ∧ Contiguous b.stop stop rest

theorem Ascending.contiguous (h : Ascending s t bs)
    (filled : ∀ i, s ≤ i → i < t → Covered bs i) : Contiguous s t bs := by
  induction bs generalizing s with
  | nil =>
      rcases Nat.eq_or_lt_of_le h with eq | lt
      · exact eq
      · obtain ⟨b, hb, -⟩ := filled s (Nat.le_refl s) lt
        cases hb
  | cons b rest ih =>
      obtain ⟨low, grid, size, large, back⟩ := h
      have behind {i : Nat} (covered : Covered rest i) : b.stop ≤ i := by
        obtain ⟨c, hc, covers⟩ := covered
        exact Nat.le_trans (back.mem hc).1 covers.1
      have first : b.offset = s := by
        have := back.le
        simp only [stop] at *
        cases covered_cons.mp (filled s (Nat.le_refl s) (by omega)) with
        | inl covers => exact Nat.le_antisymm covers.1 low
        | inr covered =>
            have := behind covered
            omega
      refine ⟨first, ih back fun i above below => ?_⟩
      have := Nat.le_trans (Nat.le_add_right b.offset b.size) above
      cases covered_cons.mp (filled i (by omega) below) with
      | inl covers => exact absurd covers.2 (Nat.not_lt.mpr above)
      | inr covered => exact covered

theorem Contiguous.sum_size (h : Contiguous s t bs) : s + (bs.map (·.size)).sum = t := by
  induction bs generalizing s with
  | nil => exact h
  | cons b rest ih =>
      have tail := ih h.2
      rw [List.map_cons, List.sum_cons, ← tail, ← h.1, stop, Nat.add_assoc]

theorem Contiguous.dvd (h : Contiguous s t bs) (start : 32 ∣ s) (grid : ∀ b ∈ bs, 32 ∣ b.size) :
    32 ∣ t := by
  induction bs generalizing s with
  | nil => exact h ▸ start
  | cons b rest ih =>
      apply ih h.2
      · rw [stop, h.1]
        exact Nat.dvd_add start (grid b List.mem_cons_self)
      · exact fun c hc => grid c (List.mem_cons_of_mem b hc)

/-- Free blocks that lie end to end would have been merged. -/
theorem Contiguous.eq_of_free (h : Contiguous 0 t bs) (apart : Apart bs)
    (free : ∀ b ∈ bs, b.allocated = false) : bs = [] ∧ t = 0 ∨ bs = [⟨0, t, false⟩] := by
  match bs with
  | [] => exact .inl ⟨rfl, h.symm⟩
  | [⟨offset, size, allocated⟩] =>
      obtain ⟨rfl, last⟩ := h
      cases free _ (List.mem_singleton_self _)
      have whole : 0 + size = t := last
      rw [← whole, Nat.zero_add]
      exact .inr rfl
  | b :: c :: rest =>
      have joins : b.Joins c := ⟨free b (by simp), free c (by simp), h.2.1.symm⟩
      exact absurd joins (List.isChain_cons_cons.mp apart).1

end Block

namespace Layout

variable {l l' : Layout} {op : Operation Nat} {result : Reply × Layout} {size o : Nat}

theorem brk_of_moveBreak {increment : Int} (h : l.moveBreak increment = some l') :
    (l'.brk : Int) = l.brk + increment := by
  simp only [moveBreak] at h
  split at h
  · next fits =>
      cases h
      simp only
      omega
  · cases h

theorem grows_of_granted {attempt : Option (Nat × Layout)}
    (grows : ∀ o l', attempt = some (o, l') → l.Grows l') : l.Grows (l.granted attempt).2 := by
  cases served : attempt with
  | none => exact .inl (Recuts.refl l)
  | some result => exact grows result.1 result.2 served

theorem grows_of_allocate (ascending : Ascending 0 l.brk l.blocks)
    (h : l.allocate size = some (o, l')) : l.Grows l' := by
  obtain ⟨n, -, -, takes, -⟩ := allocate_eq_some ascending h
  exact takes.grows

theorem answer_grows (ascending : Ascending 0 l.brk l.blocks) (op : Operation (Option Nat))
    (other : ∀ increment, op ≠ .sbrk increment) : l.Grows (l.answer op).2 := by
  cases op with
  | allocate size => exact grows_of_granted fun _ _ => grows_of_allocate ascending
  | zeroAllocate count size => exact grows_of_granted fun _ _ => grows_of_allocate ascending
  | allocateAligned alignment size =>
      simp only [answer]
      split
      · exact .inl (Recuts.refl l)
      · next power =>
          split
          · exact grows_of_granted fun _ _ => grows_of_allocate ascending
          · next wide =>
              apply grows_of_granted
              intro o l' served
              have grid := Allocator.dvd_of_isPowerOfTwo (by simpa using power) (by omega)
              obtain ⟨n, -, -, -, takes⟩ :=
                allocateAligned_eq_some ascending grid (by omega) served
              exact takes.grows
  | resize pointer size =>
      cases pointer with
      | none => exact grows_of_granted fun _ _ => grows_of_allocate ascending
      | some o =>
          simp only [answer]
          split
          · exact .inl (free_frees l _).recuts
          · apply grows_of_granted
            intro n l' served
            obtain ⟨result, allocated, eq⟩ := Option.map_eq_some_iff.mp served
            cases eq
            exact (grows_of_allocate ascending allocated).recut (free_frees result.2 _).recuts
  | free pointer =>
      cases pointer with
      | none => exact .inl (Recuts.refl l)
      | some o => exact .inl (free_frees l _).recuts
  | usableSize pointer => cases pointer <;> exact .inl (Recuts.refl l)
  | sbrk increment => exact absurd rfl (other increment)

/-- An operation other than `sbrk` changes the space of the blocks, and `sbrk` the break. -/
theorem Answers.change (h : l.Answers op result) (ascending : Ascending 0 l.brk l.blocks) :
    (∀ increment, op ≠ .sbrk increment) ∧ l.Grows result.2 ∨
      ∃ increment, op = .sbrk increment ∧ result = l.answer (.sbrk increment) := by
  rcases h with ⟨named, rfl, -, rfl⟩ | ⟨p, pointer, rfl⟩
  · cases named with
    | sbrk increment => exact .inr ⟨increment, rfl, rfl⟩
    | _ =>
        refine .inl ⟨?_, answer_grows ascending _ ?_⟩
        · intro increment eq
          cases eq
        · intro increment eq
          cases eq
  · refine .inl ⟨?_, .inl (Recuts.refl l)⟩
    rintro increment rfl
    cases pointer

end Layout

end Confine
