import Confine.Proofs.Client.Isolation

/-! # Which pointers are accepted

The live addresses are always accepted.  Another pointer is rejected unless the words in front of it
are forged: they lie in a cell that is no header of the list and pass for one all the same.  Where
nothing but the allocator stores bytes no cell is forged, whatever was merged, split or copied.
-/

namespace Confine

open Block Layout Allocator

namespace Allocator

variable {a : Allocator} {l : Layout} {o p : Nat}

/-- Every operation that takes a pointer reports this one as invalid and changes nothing. -/
structure Rejects (a : Allocator) (p : Nat) : Prop where
  usableSize : usableSize p a = (.error (.error (.invalidPointer p)), a)
  free : free p a = (.error (.error (.invalidPointer p)), a)
  resize : ∀ size, resize p size a = (.error (.error (.invalidPointer p)), a)

def Listed (a : Allocator) (o : Nat) : Prop :=
  ∃ bs, a.blocks = .ok bs ∧ ∃ b ∈ bs, b.offset = o

theorem Refused.rejects (h : a.Refused p) (nonnull : p ≠ 0) : a.Rejects p :=
  ⟨(h.all nonnull 0).1, (h.all nonnull 0).2.1, fun size => (h.all nonnull size).2.2⟩

theorem Accepts.not_rejects (h : a.Accepts p) : ¬a.Rejects p := by
  intro rejects
  obtain ⟨size, accepted⟩ := h.usableSize
  rw [rejects.usableSize] at accepted
  cases accepted

theorem not_rejects_of_forged (placed : a.heap.Placed) (grid : 32 ∣ o) (below : o + 32 ≤ a.heap.brk)
    (forged : a.Passes o ∨ a.Overflows o) : ¬a.Rejects (a.heap.base + (o + 32)) := by
  intro rejects
  have reported := rejects.usableSize
  cases forged with
  | inl passes =>
      have left : Word.sub (a.heap.headerAt o).size Header.bytes =
          .ok ((a.heap.headerAt o).size - 32) := Word.sub_eq_ok_iff.mpr ⟨passes.large, rfl⟩
      have accepted := (liveBlock_cell placed grid below (passes.not_overflows placed)).1 passes
      rw [usableSize, bind_ok accepted, bind_ok (header_run placed grid below), left,
        run_orPanic_ok] at reported
      cases reported
  | inr overflows =>
      rw [usableSize, bind_error (liveBlock_of_overflows placed grid below overflows)] at reported
      cases reported

theorem Realizes.listed_iff (h : Realizes a l) (apart : Apart l.blocks) :
    a.Listed o ↔ ∃ b ∈ l.blocks, b.offset = o := by
  have walk := (h.wellFormed apart).walk
  constructor
  · rintro ⟨bs, walked, found⟩
    rw [walk] at walked
    cases walked
    exact found
  · exact fun found => ⟨l.blocks, walk, found⟩

end Allocator

namespace Client

variable {s : Client} {l : Layout} {heap : Heap} {request : Request Nat} {p : Nat}

namespace Sound

/-- A pointer that is not live is refused if no unlisted cell in front of it is forged. -/
theorem refused_of_unforged (h : Sound s l) (word : p < Word.limit) (dead : p ∉ s.live)
    (unforged : ∀ o, p = s.allocator.heap.base + (o + 32) → 32 ∣ o → o + 32 ≤ s.allocator.heap.brk →
      (∀ b ∈ l.blocks, b.offset ≠ o) → ¬s.allocator.Passes o ∧ ¬s.allocator.Overflows o) :
    s.allocator.Refused p := by
  by_cases cell : ∃ o, p = s.allocator.heap.base + (o + 32) ∧ 32 ∣ o ∧ o + 32 ≤ s.allocator.heap.brk
  · obtain ⟨o, rfl, grid, below⟩ := cell
    by_cases listed : ∃ b ∈ l.blocks, b.offset = o
    · obtain ⟨b, hb, rfl⟩ := listed
      apply h.realizes.refused_of_free hb
      apply Bool.eq_false_iff.mpr
      intro allocated
      exact dead (h.live_of_block hb allocated)
    · obtain ⟨fails, low⟩ := unforged o rfl grid below fun b hb eq => listed ⟨b, hb, eq⟩
      exact (liveBlock_cell h.realizes.placed grid below low).2 fails
  · apply refused_of_off_grid h.realizes.placed word
    intro o grid below eq
    exact cell ⟨o, eq, grid, below⟩

end Sound

theorem sound_of_careful (fresh : heap.Fresh) (run : Reaches Careful (start heap) s) :
    ∃ l, Sound s l :=
  run.sound ⟨_, Sound.start fresh⟩ fun _ _ _ _ careful => careful

theorem Reaches.careful (fresh : heap.Fresh) (run : Reaches Honest (start heap) s) :
    Reaches Careful (start heap) s := by
  induction run with
  | refl => exact .refl
  | step before honest ih =>
      obtain ⟨l, sound⟩ := sound_of_honest fresh before
      exact .step ih (sound.careful_of_honest honest)

/-- As long as no pointer was accepted that is not live, the next one is rejected exactly if the
words in front of it are not forged. -/
theorem rejects_iff_of_careful (fresh : heap.Fresh) (run : Reaches Careful (start heap) s)
    (word : p < Word.limit) (nonnull : p ≠ 0) (dead : p ∉ s.live) :
    s.allocator.Rejects p ↔
      ∀ o, p = s.allocator.heap.base + (o + 32) → 32 ∣ o → o + 32 ≤ s.allocator.heap.brk →
        ¬s.allocator.Listed o → ¬s.allocator.Passes o ∧ ¬s.allocator.Overflows o := by
  obtain ⟨l, sound⟩ := sound_of_careful fresh run
  have listed_iff {o : Nat} := sound.realizes.listed_iff (o := o) sound.books.apart
  constructor
  · rintro rejects o rfl grid below -
    apply not_or.mp
    intro forged
    exact not_rejects_of_forged sound.realizes.placed grid below forged rejects
  · intro unforged
    apply Refused.rejects _ nonnull
    apply sound.refused_of_unforged word dead
    intro o eq grid below unlisted
    apply unforged o eq grid below
    intro listed
    obtain ⟨b, hb, same⟩ := listed_iff.mp listed
    exact unlisted b hb same

/-- A pointer behind words in a payload that name the block as their predecessor is rejected, since
the block does not lead to them. -/
theorem unlinked_header_rejected :
    (writer [0, 2 ^ 64 - 1, 32, 1]).allocator.Rejects (2 ^ 32 + 96) := by
  have base : (writer [0, 2 ^ 64 - 1, 32, 1]).allocator.heap.base = 2 ^ 32 := by decide +kernel
  have prev : ((writer [0, 2 ^ 64 - 1, 32, 1]).allocator.heap.headerAt 64).prev = some 0 := by
    decide +kernel
  have next : ((writer [0, 2 ^ 64 - 1, 32, 1]).allocator.heap.headerAt 0).next = some 288 := by
    decide +kernel
  have run : Reaches Careful (start mebibyte) (writer [0, 2 ^ 64 - 1, 32, 1]) :=
    (writer_reached (by decide)).careful mebibyte_fresh
  apply (rejects_iff_of_careful mebibyte_fresh run (by decide) (by decide) (by decide +kernel)).mpr
  intro o eq _ _ _
  rw [base] at eq
  obtain rfl : o = 64 := by omega
  constructor
  · intro passes
    obtain ⟨-, -, linked⟩ := passes.later 0 prev
    cases next.symm.trans linked
  · rintro ⟨q, named, -, high⟩
    cases prev.symm.trans named
    rw [base] at high
    exact absurd high (by decide)

/-- A program can forge a header in its own payload: one that names itself as its neighbour is
accepted, and one that names a predecessor at the end of the words stops the allocator. -/
theorem forged_header_accepted :
    Reaches Honest (start mebibyte) (writer [64, 64, 32, 1]) ∧
      2 ^ 32 + 96 ∉ (writer [64, 64, 32, 1]).live ∧
      (writer [64, 64, 32, 1]).reply (.operation (.usableSize (2 ^ 32 + 96))) = .size 0 ∧
      (writer [64, 64, 32, 1]).reply (.operation (.free (2 ^ 32 + 96))) = .done ∧
      Reaches Honest (start mebibyte) (writer [2 ^ 64 - 64, 0, 0, 0]) ∧
      2 ^ 32 + 96 ∉ (writer [2 ^ 64 - 64, 0, 0, 0]).live ∧
      (writer [2 ^ 64 - 64, 0, 0, 0]).reply (.operation (.free (2 ^ 32 + 96))) =
        .failed (.panic .addOverflow) :=
  ⟨writer_reached (by decide), by decide +kernel, by decide +kernel, by decide +kernel,
    writer_reached (by decide), by decide +kernel, by decide +kernel⟩

/-- A program that stores nothing itself and passes any words as pointers. -/
def Storeless (_ : Client) (request : Request Nat) : Prop :=
  (∀ address, ¬request.Writes address) ∧
    ∀ op p, request = .operation op → op.pointer? = some p → p < Word.limit

namespace Sound

theorem refused_of_quiet (h : Sound s l) (quiet : s.allocator.Quiet l.blocks)
    (word : p < Word.limit) (dead : p ∉ s.live) : s.allocator.Refused p := by
  apply h.refused_of_unforged word dead
  intro o _ grid _ unlisted
  exact not_forged_of_calm h.realizes.placed (quiet o grid unlisted)

theorem careful_of_storeless (h : Sound s l) (quiet : s.allocator.Quiet l.blocks)
    (storeless : s.Storeless request) : s.Careful request := by
  refine ⟨fun address writes => absurd writes (storeless.1 address), ?_⟩
  intro op p eq pointer
  by_cases live : p ∈ s.live
  · exact .inr (.inl live)
  · exact .inr (.inr (h.refused_of_quiet quiet (storeless.2 op p eq pointer) live))

theorem step_quiet (h : Sound s l) (quiet : s.allocator.Quiet l.blocks)
    (storeless : s.Storeless request) :
    ∃ l', Sound (s.serve request) l' ∧ (s.serve request).allocator.Quiet l'.blocks := by
  have careful := h.careful_of_storeless quiet storeless
  cases request with
  | operation op =>
      obtain ⟨result, -, advance⟩ := h.operation op fun p => careful.2 op p rfl
      exact ⟨result.2, advance.sound, advance.evolves.quiet quiet⟩
  | access access =>
      refine ⟨l, h.access careful.1, ?_⟩
      apply quiet.of_bytes
      intro c grid unlisted k _
      exact .inr ⟨c, grid, unlisted, h.byte_access careful.1 (storeless.1 _)⟩

end Sound

theorem start_quiet (fresh : heap.Fresh) : (start heap).allocator.Quiet [] := by
  intro c _ _
  rw [Heap.calm_iff, start, new, fresh.zeros.2]
  simp

theorem quiet_of_storeless (fresh : heap.Fresh) (run : Reaches Storeless (start heap) s) :
    ∃ l, Sound s l ∧ s.allocator.Quiet l.blocks := by
  induction run with
  | refl => exact ⟨_, Sound.start fresh, start_quiet fresh⟩
  | step _ storeless ih =>
      obtain ⟨l, sound, quiet⟩ := ih
      exact sound.step_quiet quiet storeless

/-- Where the program stores nothing itself, the accepted pointers are the live addresses, and every
other one is rejected. -/
theorem accepts_iff_of_storeless (fresh : heap.Fresh) (run : Reaches Storeless (start heap) s)
    (word : p < Word.limit) (nonnull : p ≠ 0) :
    (s.allocator.Accepts p ↔ p ∈ s.live) ∧ (p ∉ s.live → s.allocator.Rejects p) := by
  obtain ⟨l, sound, quiet⟩ := quiet_of_storeless fresh run
  have rejected (dead : p ∉ s.live) : s.allocator.Rejects p :=
    (sound.refused_of_quiet quiet word dead).rejects nonnull
  refine ⟨⟨?_, sound.accepts⟩, rejected⟩
  intro accepts
  by_contra dead
  exact accepts.not_rejects (rejected dead)

/-- A block that was freed is not freed again. -/
theorem double_free_rejected :
    (tenant.serve (.operation (.free (2 ^ 32 + 32)))).allocator.Rejects (2 ^ 32 + 32) := by
  have allocated : Storeless (start mebibyte) (.operation (.allocate 256)) :=
    ⟨fun _ writes => writes, fun _ _ eq pointer => by cases eq; cases pointer⟩
  have freed : Storeless tenant (.operation (.free (2 ^ 32 + 32))) :=
    ⟨fun _ writes => writes, fun _ _ eq pointer => by cases eq; cases pointer; decide⟩
  exact (accepts_iff_of_storeless mebibyte_fresh (.step (.step .refl allocated) freed) (by decide)
    (by decide)).2 (by decide +kernel)

end Client

end Confine
