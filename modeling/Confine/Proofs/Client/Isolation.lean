import Confine.Proofs.Client.BlockList

/-! # Isolation

What a program was given is its own: the parts of the heap that it may use and the headers of the
list never overlap, and as long as it keeps a block or a span, no step changes a byte of it that the
program does not write itself.
-/

namespace Confine

open Block Layout Allocator

def Block.headerSpan (b : Block) : Span :=
  ⟨b.offset, b.offset + 32⟩

namespace Allocator

/-- Every operation that takes a pointer takes this one. -/
structure Accepts (a : Allocator) (p : Nat) : Prop where
  usableSize : ∃ size, usableSize p a = (.ok size, a)
  free : ∃ a', free p a = (.ok (), a')
  resize : ∀ size, (∃ q a', resize p size a = (.ok q, a')) ∨
    resize p size a = (.error (.error .outOfMemory), a)

end Allocator

namespace Client

variable {s t : Client} {l l' : Layout} {b : Block} {heap : Heap} {p i : Nat}

/-- The parts of the heap that have a use: payloads of live blocks, headers, and held spans. -/
def spans (s : Client) (bs : List Block) : List Span :=
  s.live.map s.usable ++ (bs.map headerSpan ++ s.held)

/-- The parts of the heap that have a use lie apart below the break, and every live address is
accepted. -/
structure Isolated (s : Client) (bs : List Block) : Prop where
  walk : s.allocator.blocks = .ok bs
  disjoint : (s.spans bs).Pairwise Span.Disjoint
  below : ∀ span ∈ s.spans bs, ∀ i, span.Has i → i < s.allocator.heap.brk
  accepted : ∀ p ∈ s.live, s.allocator.Accepts p

namespace Sound

theorem accepts (h : Sound s l) (live : p ∈ s.live) : s.allocator.Accepts p := by
  obtain ⟨b, hb, allocated, rfl⟩ := h.block_of_live live
  obtain ⟨a', freed, -⟩ := free_run l.Vacant h.realizes h.books.apart hb allocated
  refine ⟨⟨_, usableSize_run h.realizes hb allocated⟩, ⟨a', freed⟩, ?_⟩
  intro size
  by_cases zero : size = 0
  · subst zero
    left
    refine ⟨none, a', ?_⟩
    rw [Allocator.resize, if_neg (by omega), if_pos rfl]
    exact bind_ok freed
  · have run := resize_run h.realizes h.books.apart hb allocated zero
    cases served : l.allocate size with
    | none =>
        rw [served] at run
        exact .inr run
    | some result =>
        rw [served] at run
        obtain ⟨a', run, -⟩ := run
        exact .inl ⟨_, a', run⟩

theorem usable_span (h : Sound s l) (live : p ∈ s.live) :
    ∃ b ∈ l.blocks, p = l.address b ∧ s.usable p = ⟨b.offset + 32, b.stop⟩ := by
  obtain ⟨b, hb, allocated, rfl⟩ := h.block_of_live live
  exact ⟨b, hb, by rw [h.realizes.base, Layout.address], h.usable_eq hb allocated⟩

theorem usable_disjoint {q : Nat} (h : Sound s l) (hp : p ∈ s.live) (hq : q ∈ s.live)
    (ne : p ≠ q) : (s.usable p).Disjoint (s.usable q) := by
  obtain ⟨b, hb, rfl, usableB⟩ := h.usable_span hp
  obtain ⟨c, hc, rfl, usableC⟩ := h.usable_span hq
  rw [usableB, usableC]
  rintro i ⟨low, high⟩ ⟨low', high'⟩
  dsimp only at low high low' high'
  rcases h.realizes.ascending.disjoint hb hc with rfl | below | above
  · exact ne rfl
  · omega
  · omega

theorem usable_header (h : Sound s l) (hp : p ∈ s.live) (hb : b ∈ l.blocks) :
    (s.usable p).Disjoint b.headerSpan := by
  obtain ⟨c, hc, -, usableC⟩ := h.usable_span hp
  have large := (h.realizes.ascending.mem hb).2.2.2.1
  rw [usableC]
  rintro i ⟨low, high⟩ ⟨low', high'⟩
  dsimp only [headerSpan] at low high low' high'
  rcases h.realizes.ascending.disjoint hc hb with rfl | below | above
  · omega
  · omega
  · simp only [stop] at above
    omega

/-- A held span meets no block, and so neither a payload nor a header. -/
theorem held_disjoint {span part : Span} (h : Sound s l) (hs : span ∈ s.held)
    (inBlock : ∀ i, part.Has i → ∃ b ∈ l.blocks, b.Covers i) : part.Disjoint span := by
  intro i first second
  obtain ⟨b, hb, covers⟩ := inBlock i first
  exact h.books.clear span hs i second b hb covers

theorem covers_of_usable (h : Sound s l) (hp : p ∈ s.live) (has : (s.usable p).Has i) :
    ∃ b ∈ l.blocks, b.Covers i := by
  obtain ⟨b, hb, -, usableB⟩ := h.usable_span hp
  rw [usableB] at has
  exact ⟨b, hb, Nat.le_of_add_right_le has.1, has.2⟩

theorem covers_of_header (h : Sound s l) (hb : b ∈ l.blocks) (has : b.headerSpan.Has i) :
    b.Covers i := by
  have large := (h.realizes.ascending.mem hb).2.2.2.1
  exact ⟨has.1, Nat.lt_of_lt_of_le has.2 (Nat.add_le_add_left large b.offset)⟩

theorem lt_of_covers (h : Sound s l) (hb : b ∈ l.blocks) (covers : b.Covers i) :
    i < s.allocator.heap.brk :=
  h.realizes.brk ▸ Nat.lt_of_lt_of_le covers.2 (h.realizes.ascending.mem hb).2.2.2.2

theorem isolated (h : Sound s l) : s.Isolated l.blocks where
  walk := (h.realizes.wellFormed h.books.apart).walk
  disjoint := by
    refine List.pairwise_append.mpr ⟨?_, List.pairwise_append.mpr ⟨?_, h.books.disjoint, ?_⟩, ?_⟩
    · apply List.pairwise_map.mpr
      apply h.books.nodup.imp_of_mem
      intro p q hp hq ne
      exact h.usable_disjoint hp hq ne
    · apply List.pairwise_map.mpr
      apply h.realizes.ascending.ordered.imp_of_mem
      intro b c hb hc order i first second
      have := (h.covers_of_header hb first).2
      have := (h.covers_of_header hc second).1
      omega
    · intro header hh span hs
      obtain ⟨b, hb, rfl⟩ := List.mem_map.mp hh
      apply h.held_disjoint hs
      intro i has
      exact ⟨b, hb, h.covers_of_header hb has⟩
    · intro payload hp other ho
      obtain ⟨p, live, rfl⟩ := List.mem_map.mp hp
      cases List.mem_append.mp ho with
      | inl header =>
          obtain ⟨b, hb, rfl⟩ := List.mem_map.mp header
          exact h.usable_header live hb
      | inr held =>
          apply h.held_disjoint held
          intro i has
          exact h.covers_of_usable live has
  below span hs i has := by
    cases List.mem_append.mp hs with
    | inl payload =>
        obtain ⟨p, live, rfl⟩ := List.mem_map.mp payload
        obtain ⟨b, hb, covers⟩ := h.covers_of_usable live has
        exact h.lt_of_covers hb covers
    | inr other =>
        cases List.mem_append.mp other with
        | inl header =>
            obtain ⟨b, hb, rfl⟩ := List.mem_map.mp header
            exact h.lt_of_covers hb (h.covers_of_header hb has)
        | inr held =>
            exact h.realizes.brk ▸ h.books.below span held i has
  accepted p live := h.accepts live

/-- A block that was allocated stays in the list as long as its address is live. -/
theorem kept (h : Sound s l) (h' : Sound t l') (retains : l.Retains l')
    (base : t.allocator.heap.base = s.allocator.heap.base) (hb : b ∈ l.blocks)
    (allocated : b.allocated = true)
    (live : s.allocator.heap.base + (b.offset + 32) ∈ t.live) : b ∈ l'.blocks := by
  obtain ⟨c, hc, marked, eq⟩ := h'.block_of_live live
  rw [base] at eq
  have same : b.offset = c.offset := by omega
  cases retains c hc marked with
  | inl old =>
      rw [h.realizes.ascending.eq_of_offset hb old same]
      exact hc
  | inr vacant =>
      have large := (h.realizes.ascending.mem hb).2.2.2.1
      have large' := (h'.realizes.ascending.mem hc).2.2.2.1
      have covers : b.Covers b.offset := ⟨Nat.le_refl _, by simp only [stop]; omega⟩
      have covers' : c.Covers b.offset := ⟨Nat.le_of_eq same.symm, by simp only [stop]; omega⟩
      exact absurd (vacant b.offset covers') (not_vacant h.realizes.ascending hb allocated covers)

end Sound

/-- An honest program that does not release an address. -/
def Keeping (p : Nat) (s : Client) (request : Request Nat) : Prop :=
  s.Honest request ∧ p ∈ (s.serve request).live

def Holds (s : Client) (i : Nat) : Prop :=
  ∃ span ∈ s.held, span.Has i

/-- An honest program that does not give back a byte. -/
def Holding (i : Nat) (s : Client) (request : Request Nat) : Prop :=
  s.Honest request ∧ (s.serve request).Holds i

section Runs

variable {allowed allowed' : Client → Request Nat → Prop}

theorem Reaches.mono (run : Reaches allowed s t)
    (weaker : ∀ u request, allowed u request → allowed' u request) : Reaches allowed' s t := by
  induction run with
  | refl => exact .refl
  | step _ step ih => exact .step ih (weaker _ _ step)

theorem Reaches.block (run : Reaches (Keeping p) s t) (h : Sound s l) (hb : b ∈ l.blocks)
    (allocated : b.allocated = true) (eq : p = s.allocator.heap.base + (b.offset + 32)) :
    ∃ l', Sound t l' ∧ b ∈ l'.blocks ∧ t.allocator.heap.base = s.allocator.heap.base := by
  induction run with
  | refl => exact ⟨l, h, hb, rfl⟩
  | step _ keeping ih =>
      obtain ⟨l₁, sound, hb₁, base⟩ := ih
      obtain ⟨l₂, sound₂, retains, base₂, -⟩ := sound.step (sound.careful_of_honest keeping.1)
      have live := keeping.2
      rw [eq, ← base] at live
      exact ⟨l₂, sound₂, sound.kept sound₂ retains base₂ hb₁ allocated live, base₂.trans base⟩

/-- A byte that the program owns all along changes by its own writes only. -/
theorem Reaches.byte (run : Reaches allowed s t)
    (owned : ∀ u, Reaches allowed s u →
      ∃ l, Sound u l ∧ u.Owns i ∧ u.allocator.heap.base = s.allocator.heap.base)
    (spared : ∀ u request, allowed u request →
      u.Honest request ∧ ¬request.Writes (s.allocator.heap.base + i)) : t.byte i = s.byte i := by
  induction run with
  | refl => rfl
  | @step u request before step ih =>
      obtain ⟨l, sound, owns, base⟩ := owned u before
      obtain ⟨honest, spares⟩ := spared u request step
      obtain ⟨-, -, -, -, same⟩ := sound.step (sound.careful_of_honest honest)
      exact (same i owns (base ▸ spares)).trans ih

theorem Reaches.base (run : Reaches allowed s t) (h : ∃ l, Sound s l)
    (honest : ∀ u request, allowed u request → u.Honest request) :
    (∃ l, Sound t l) ∧ t.allocator.heap.base = s.allocator.heap.base := by
  induction run with
  | refl => exact ⟨h, rfl⟩
  | step _ step ih =>
      obtain ⟨⟨l, sound⟩, base⟩ := ih
      obtain ⟨l', sound', -, base', -⟩ := sound.step (sound.careful_of_honest (honest _ _ step))
      exact ⟨⟨l', sound'⟩, base'.trans base⟩

end Runs

/-- What an honest program has is isolated from everything else that happens in the heap. -/
theorem isolation_of_honest (fresh : heap.Fresh) (run : Reaches Honest (start heap) s) :
    (∃ bs, s.Isolated bs) ∧
      (∀ p ∈ s.live, ∀ t, Reaches (Keeping p) s t →
        (usableSize p t.allocator).1 = (usableSize p s.allocator).1) ∧
      (∀ p ∈ s.live, ∀ i, (s.usable p).Has i → ∀ t,
        Reaches (fun u request => Keeping p u request ∧
          ¬request.Writes (s.allocator.heap.base + i)) s t → t.byte i = s.byte i) ∧
      ∀ i, s.Holds i → ∀ t,
        Reaches (fun u request => Holding i u request ∧
          ¬request.Writes (s.allocator.heap.base + i)) s t → t.byte i = s.byte i := by
  obtain ⟨l, sound⟩ := sound_of_honest fresh run
  refine ⟨⟨l.blocks, sound.isolated⟩, ?_, ?_, ?_⟩
  · intro p live t kept
    obtain ⟨b, hb, allocated, eq⟩ := sound.block_of_live live
    obtain ⟨l', sound', hb', base⟩ := kept.block sound hb allocated eq
    have before := usableSize_run sound.realizes hb allocated
    have after := usableSize_run sound'.realizes hb' allocated
    rw [base, ← eq] at after
    rw [← eq] at before
    rw [before, after]
  · intro p live i has t kept
    obtain ⟨b, hb, allocated, eq⟩ := sound.block_of_live live
    apply kept.byte ?_ fun u request step => ⟨step.1.1, step.2⟩
    intro u before
    obtain ⟨l', sound', hb', base⟩ :=
      (before.mono fun _ _ step => step.1).block sound hb allocated eq
    rw [eq, sound.usable_eq hb allocated] at has
    exact ⟨l', sound', sound'.owns_iff.mpr (.inl ⟨b, hb', allocated, has⟩), base⟩
  · intro i holds t kept
    apply kept.byte ?_ fun u request step => ⟨step.1.1, step.2⟩
    intro u before
    obtain ⟨⟨l', sound'⟩, base⟩ := before.base ⟨l, sound⟩ fun _ _ step => step.1.1
    refine ⟨l', sound', .inr ?_, base⟩
    cases before with
    | refl => exact holds
    | step _ step => exact step.1.2

/-- Allocating a second block changes neither the size of the first nor what is stored in it. -/
theorem isolation_of_second_block :
    (∃ bs, (writer [1, 2, 3]).Isolated bs) ∧
      (usableSize (2 ^ 32 + 32)
        ((writer [1, 2, 3]).serve (.operation (.allocate 70000))).allocator).1 =
        (usableSize (2 ^ 32 + 32) (writer [1, 2, 3]).allocator).1 ∧
      ((writer [1, 2, 3]).serve (.operation (.allocate 70000))).byte 64 =
        (writer [1, 2, 3]).byte 64 := by
  have live : 2 ^ 32 + 32 ∈ (writer [1, 2, 3]).live := by decide +kernel
  have has : ((writer [1, 2, 3]).usable (2 ^ 32 + 32)).Has 64 := by decide +kernel
  have keeping : Keeping (2 ^ 32 + 32) (writer [1, 2, 3]) (.operation (.allocate 70000)) :=
    ⟨honest_of_no_pointer rfl, by decide +kernel⟩
  obtain ⟨isolated, sizes, bytes, -⟩ :=
    isolation_of_honest mebibyte_fresh (@writer_reached [1, 2, 3] (by decide))
  exact ⟨isolated, sizes _ live _ (.step .refl keeping),
    bytes _ live 64 has _ (.step .refl ⟨keeping, id⟩)⟩

end Client

end Confine
