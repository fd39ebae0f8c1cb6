import Confine.Proofs.Client.FirstFit
import Confine.Proofs.Client.Ledger
import Confine.Proofs.Client.Lending

/-! # Moving the break

The break follows an increment whenever that leaves it in the region and not below the last block,
and nothing but the break changes.  What it passes over is the program's from then on: until it is
moved back, no block comes to lie there and no request is answered with a part of it.
-/

namespace Confine

open Block Layout Allocator

namespace Layout

variable {l : Layout} {increment : Int}

/-- The increment leads to an offset in the region, which is not below the last block if the break
moves back. -/
def Allows (l : Layout) (increment : Int) : Prop :=
  (increment < 0 → (l.floor : Int) ≤ l.brk + increment) ∧ (l.brk : Int) + increment ≤ l.capacity

theorem moveBreak_of_allows (h : l.Allows increment) :
    l.moveBreak increment = some { l with brk := ((l.brk : Int) + increment).toNat } :=
  if_pos h

theorem moveBreak_of_not_allows (h : ¬l.Allows increment) : l.moveBreak increment = none :=
  if_neg h

end Layout

namespace Client

variable {s t : Client} {l : Layout} {heap : Heap} {request : Request Nat} {increment : Int}
  {i p : Nat}

/-- The break of a program has moved by an increment, and nothing else has. -/
structure Shifts (s t : Client) (increment : Int) (bs : List Block) : Prop where
  replied : s.reply (.operation (.sbrk increment)) =
    .address (some (s.allocator.heap.base + s.allocator.heap.brk))
  brk : (t.allocator.heap.brk : Int) = s.allocator.heap.brk + increment
  rest : t.allocator = { s.allocator with heap.brk := t.allocator.heap.brk }
  list : t.allocator.WellFormed bs
  live : t.live = s.live
  held : ∀ i, t.Holds i ↔
    i < t.allocator.heap.brk ∧ (s.allocator.heap.brk ≤ i ∨ s.Holds i)

/-- The break moves by an increment that is allowed, and every other one is an error that changes
nothing. -/
structure MovesBreak (s : Client) (bs : List Block) (increment : Int) : Prop where
  moves : (s.allocator.layout bs).Allows increment →
    s.Shifts (s.serve (.operation (.sbrk increment))) increment bs
  fails : ¬(s.allocator.layout bs).Allows increment →
    s.allocator.perform (.operation (.sbrk increment)) =
      (.failed (.error .outOfMemory), s.allocator)

/-- What the answer to a request puts at the program's disposal: the payload at an address, or what
the break has passed over. -/
def handed (s : Client) (request : Request Nat) : Span :=
  match request, s.reply request with
  | .operation (.sbrk _), .address _ =>
    ⟨s.allocator.heap.brk, (s.serve request).allocator.heap.brk⟩
  | .operation _, .address (some p) => (s.serve request).usable p
  | _, _ => ⟨0, 0⟩

theorem handed_sbrk (has : (s.handed (.operation (.sbrk increment))).Has i) :
    s.allocator.heap.brk ≤ i := by
  unfold handed at has
  split at has
  · exact has.1
  · next other same _ =>
      cases same
      exact absurd rfl (other increment)
  · exact absurd has.2 (Nat.not_lt_zero i)

theorem handed_other (other : ∀ increment, request ≠ .operation (.sbrk increment))
    (has : (s.handed request).Has i) : ∃ op p, request = .operation op ∧
      s.reply request = .address (some p) ∧ ((s.serve request).usable p).Has i := by
  unfold handed at has
  split at has
  · exact absurd rfl (other _)
  · next op p _ answer => exact ⟨op, p, rfl, answer, has⟩
  · exact absurd has.2 (Nat.not_lt_zero i)

theorem Reaches.holds (run : Reaches (Holding i) s t) (holds : s.Holds i) : t.Holds i := by
  cases run with
  | refl => exact holds
  | step _ step => exact step.2

namespace Sound

variable (h : Sound s l)

include h

theorem shifts (allowed : l.Allows increment) :
    s.Shifts (s.serve (.operation (.sbrk increment))) increment l.blocks := by
  have advance := h.sbrk increment
  have run := sbrk_run l.Vacant h.realizes increment
  simp only [answer, moveBreak_of_allows allowed] at advance run
  have moving : (Operation.sbrk increment).action s.allocator = _ := bind_ok run.1
  have served := serve_ok moving
  have brk : (s.serve (.operation (.sbrk increment))).allocator.heap.brk =
      ((l.brk : Int) + increment).toNat := advance.sound.realizes.brk
  have low := h.realizes.floor_le
  have moved : ((s.serve (.operation (.sbrk increment))).allocator.heap.brk : Int) =
      s.allocator.heap.brk + increment := by
    have := allowed.1
    rw [brk, h.realizes.brk]
    omega
  constructor
  · rw [advance.replied, h.realizes.base, h.realizes.brk]
    rfl
  · exact moved
  · rw [served]
  · exact advance.sound.realizes.wellFormed h.books.apart
  · rw [served]
    rfl
  · intro i
    rw [served]
    exact Span.any_below

theorem movesBreak (increment : Int) : s.MovesBreak l.blocks increment := by
  constructor
  · rw [h.realizes.layout_eq]
    exact h.shifts
  · rw [h.realizes.layout_eq]
    intro refused
    have run := sbrk_run l.Vacant h.realizes increment
    simp only [moveBreak_of_not_allows refused] at run
    exact perform_of_error (bind_error run)

theorem lt_of_holds (holds : s.Holds i) : i < s.allocator.heap.brk := by
  obtain ⟨span, hs, has⟩ := holds
  exact h.realizes.brk ▸ h.books.below span hs i has

/-- No request of an honest program lets a block come to lie on a byte that the program holds. -/
theorem clear_serve (honest : s.Honest request) (holds : s.Holds i) :
    ∃ l', Sound (s.serve request) l' ∧ ¬Covered l'.blocks i := by
  obtain ⟨span, hs, has⟩ := holds
  cases request with
  | access access =>
      refine ⟨l, h.access honest.1, ?_⟩
      rintro ⟨b, hb, covers⟩
      exact h.books.clear span hs i has b hb covers
  | operation op =>
      obtain ⟨result, answers, advance⟩ :=
        h.operation op fun p => (h.careful_of_honest honest).2 op p rfl
      refine ⟨result.2, advance.sound, ?_⟩
      rintro ⟨b, hb, covers⟩
      rcases answers.change h.realizes.ascending with ⟨-, grows⟩ | ⟨increment, -, rfl⟩
      · exact h.books.clear_of_grows grows span hs i has b hb covers
      · have same : (l.answer (.sbrk increment)).2.blocks = l.blocks := by
          simp only [answer]
          split
          · rfl
          · next moved => rw [moveBreak_eq_some moved]
        exact h.books.clear span hs i has b (same ▸ hb) covers

theorem not_handed (honest : s.Honest request) (holds : s.Holds i) : ¬(s.handed request).Has i := by
  intro has
  by_cases other : ∀ increment, request ≠ .operation (.sbrk increment)
  · obtain ⟨op, p, rfl, answer, usable⟩ := handed_other other has
    obtain ⟨l', sound', clear⟩ := h.clear_serve honest holds
    obtain ⟨size, lends⟩ :=
      h.lends_of_reply honest (fun increment eq => other increment (eq ▸ rfl)) answer
    exact clear (sound'.covers_of_usable (sound'.live_of_lends lends) usable)
  · obtain ⟨increment, rfl⟩ := not_forall_not.mp other
    exact absurd (h.lt_of_holds holds) (Nat.not_lt.mpr (handed_sbrk has))

end Sound

/-- The break of an honest program moves exactly as asked or not at all, and what the program holds
is not given to it or to a block another time. -/
theorem movesBreak_of_honest (fresh : heap.Fresh) (run : Reaches Honest (start heap) s) :
    (∃ bs, s.allocator.WellFormed bs ∧ ∀ increment, s.MovesBreak bs increment) ∧
      ∀ i, s.Holds i → ∀ t, Reaches (Holding i) s t → ∀ request, t.Honest request →
        ¬(t.handed request).Has i ∧
          ∃ bs, (t.serve request).allocator.WellFormed bs ∧ ¬Covered bs i := by
  obtain ⟨l, sound⟩ := sound_of_honest fresh run
  constructor
  · exact ⟨l.blocks, sound.realizes.wellFormed sound.books.apart, sound.movesBreak⟩
  · intro i holds t keeping request honest
    obtain ⟨⟨l', sound'⟩, -⟩ := keeping.base ⟨l, sound⟩ fun _ _ step => step.1
    have still := keeping.holds holds
    obtain ⟨l'', sound'', clear⟩ := sound'.clear_serve honest still
    exact ⟨sound'.not_handed honest still, l''.blocks,
      sound''.realizes.wellFormed sound''.books.apart, clear⟩

/-- A block is appended behind a byte that the program holds. -/
theorem movesBreak_off_grid :
    (∃ bs, (tenant.serve (.operation (.sbrk 5))).allocator.WellFormed bs ∧
      ∀ increment, (tenant.serve (.operation (.sbrk 5))).MovesBreak bs increment) ∧
      ∃ bs, ((tenant.serve (.operation (.sbrk 5))).serve
        (.operation (.allocate 70000))).allocator.WellFormed bs ∧ ¬Covered bs 65540 := by
  have moved : Reaches Honest (start mebibyte) (tenant.serve (.operation (.sbrk 5))) :=
    .step tenant_reached (honest_of_no_pointer rfl)
  have held : (tenant.serve (.operation (.sbrk 5))).held = [⟨65536, 65541⟩] := by decide +kernel
  have holds : (tenant.serve (.operation (.sbrk 5))).Holds 65540 :=
    ⟨⟨65536, 65541⟩, held ▸ List.mem_singleton_self _, by decide, by decide⟩
  obtain ⟨breaks, spared⟩ := movesBreak_of_honest mebibyte_fresh moved
  exact ⟨breaks, (spared 65540 holds _ .refl (.operation (.allocate 70000))
    (honest_of_no_pointer rfl)).2⟩

end Client

end Confine
