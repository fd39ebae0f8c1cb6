import Confine.Proofs.Client.BlockList
import Confine.Proofs.Layout.Tiling
import Mathlib.Order.Interval.Finset.Nat

/-! # Where every byte has gone

Below the break every byte of the heap is part of a listed block, of a span that the program holds,
or of the padding in front of a block that was appended while the break was off the grid.  The
padding is not recorded anywhere in the heap, so a run is given together with it.
-/

namespace Confine

open Block Layout Allocator

namespace Span

variable {n i : Nat} {spans others : List Span}

def length (s : Span) : Nat :=
  s.stop - s.start

def Any (spans : List Span) (i : Nat) : Prop :=
  ∃ span ∈ spans, span.Has i

/-- The offsets from one on up to another, in at most one span. -/
def between (start stop : Nat) : List Span :=
  if start < stop then [⟨start, stop⟩] else []

theorem any_append : Any (spans ++ others) i ↔ Any spans i ∨ Any others i := by
  simp only [Any, List.mem_append, or_and_right, exists_or]

theorem any_map {α : Type} {f : α → Span} {xs : List α} :
    Any (xs.map f) i ↔ ∃ x ∈ xs, (f x).Has i := by
  simp only [Any, List.mem_map, exists_exists_and_eq_and]

theorem mem_between {span : Span} {start stop : Nat} :
    span ∈ between start stop ↔ span = ⟨start, stop⟩ ∧ start < stop := by
  unfold between
  split <;> simp_all

theorem any_between {start stop : Nat} : Any (between start stop) i ↔ start ≤ i ∧ i < stop := by
  simp only [Any, mem_between, and_assoc, exists_eq_left, Has]
  omega

/-- What is left of some spans, and of one more that ends at the break, below the break. -/
theorem any_below {start brk : Nat} :
    Any ((⟨start, brk⟩ :: spans).map (·.below brk)) i ↔ i < brk ∧ (start ≤ i ∨ Any spans i) := by
  rw [any_map]
  simp only [Any, List.mem_cons, exists_eq_or_imp, below, Has, Nat.lt_min]
  constructor
  · rintro (⟨low, high, -⟩ | ⟨span, hs, low, high, below⟩)
    · exact ⟨high, .inl low⟩
    · exact ⟨below, .inr ⟨span, hs, low, high⟩⟩
  · rintro ⟨below, low | ⟨span, hs, low, high⟩⟩
    · exact .inl ⟨low, below, below⟩
    · exact .inr ⟨span, hs, low, high, below⟩

theorem sum_length_eq_card (cells : Finset Nat) (disjoint : spans.Pairwise Span.Disjoint)
    (filled : ∀ i, i ∈ cells ↔ Any spans i) :
    (spans.map length).sum = cells.card := by
  induction spans generalizing cells with
  | nil =>
      have empty : cells = ∅ := by
        apply Finset.eq_empty_of_forall_notMem
        intro i hi
        obtain ⟨span, hs, -⟩ := (filled i).mp hi
        cases hs
      rw [empty]
      rfl
  | cons span rest ih =>
      obtain ⟨apart, disjoint⟩ := List.pairwise_cons.mp disjoint
      let first := Finset.Ico span.start span.stop
      have inside : first ⊆ cells := by
        intro i hi
        exact (filled i).mpr ⟨span, List.mem_cons_self, Finset.mem_Ico.mp hi⟩
      have others : (rest.map length).sum = (cells \ first).card := by
        apply ih _ disjoint
        intro i
        rw [Finset.mem_sdiff, filled, Finset.mem_Ico]
        constructor
        · rintro ⟨⟨part, hp, has⟩, outside⟩
          cases hp with
          | head => exact absurd has outside
          | tail _ hp => exact ⟨part, hp, has⟩
        · rintro ⟨part, hp, has⟩
          exact ⟨⟨part, List.mem_cons_of_mem span hp, has⟩, fun own => apart part hp i own has⟩
      rw [List.map_cons, List.sum_cons, others, ← Finset.card_sdiff_add_card_eq_card inside,
        Nat.card_Ico, Nat.add_comm, length]

/-- Spans that are a partition of the offsets below a bound are as long as it together. -/
theorem sum_length_eq (disjoint : spans.Pairwise Span.Disjoint)
    (filled : ∀ i, i < n ↔ Any spans i) : (spans.map length).sum = n := by
  rw [sum_length_eq_card (Finset.range n) disjoint (by simpa using filled), Finset.card_range]

end Span

def Block.span (b : Block) : Span :=
  ⟨b.offset, b.stop⟩

namespace Client

variable {s : Client} {l l' : Layout} {heap : Heap} {held pads : List Span}
  {request : Request Nat} {op : Operation Nat} {i : Nat}

/-- The space between the break and the block that a request appends. -/
def padding (s : Client) (request : Request Nat) : List Span :=
  match (s.serve request).allocator.growths with
  | [] => []
  | growth :: older =>
    if older = s.allocator.growths then Span.between s.allocator.heap.brk growth.offset else []

/-- The runs from a fresh heap in which a policy allows every request, each with the padding that it
has led to. -/
inductive Ledger (allowed : Client → Request Nat → Prop) (heap : Heap) : Client → List Span → Prop
  | start : Ledger allowed heap (Client.start heap) []
  | step {s : Client} {pads : List Span} {request : Request Nat} :
      Ledger allowed heap s pads → allowed s request →
        Ledger allowed heap (s.serve request) (s.padding request ++ pads)

/-- The parts of the used heap: blocks, held spans and padding. -/
def parts (s : Client) (bs : List Block) (pads : List Span) : List Span :=
  bs.map Block.span ++ (s.held ++ pads)

/-- Every byte below the break is in one part of the used heap, and padding is short and lies in
front of a block that was appended. -/
structure Accounted (s : Client) (bs : List Block) (pads : List Span) : Prop where
  walk : s.allocator.blocks = .ok bs
  disjoint : (s.parts bs pads).Pairwise Span.Disjoint
  filled : ∀ i, i < s.allocator.heap.brk ↔ Span.Any (s.parts bs pads) i
  total : ((s.parts bs pads).map Span.length).sum = s.allocator.heap.brk
  short : ∀ pad ∈ pads, ¬32 ∣ pad.start ∧ pad.start < pad.stop ∧ pad.stop < pad.start + 32
  appended : ∀ pad ∈ pads, ∃ growth ∈ s.allocator.growths, growth.offset = pad.stop
  followed : ∀ pad ∈ pads, ∃ b ∈ bs, b.offset = pad.stop

/-- The break stays, follows an increment that was answered, or makes room for an appended block. -/
def Moves (s : Client) (request : Request Nat) : Prop :=
  let a := s.allocator
  let a' := (s.serve request).allocator
  (a'.heap.brk = a.heap.brk ∧ a'.growths = a.growths) ∨
    (∃ increment, request = .operation (.sbrk increment) ∧
      s.reply request = .address (some (a.heap.base + a.heap.brk)) ∧
      (a'.heap.brk : Int) = a.heap.brk + increment ∧ a'.growths = a.growths) ∨
    (∀ increment, request ≠ .operation (.sbrk increment)) ∧ ∃ size,
      a'.growths = ⟨Word.roundUp a.heap.brk 32, size⟩ :: a.growths ∧
        a'.heap.brk = Word.roundUp a.heap.brk 32 + size

/-- An honest program that does not move the break. -/
def Settled (s : Client) (request : Request Nat) : Prop :=
  s.Honest request ∧ ∀ increment, request = .operation (.sbrk increment) → increment = 0

/-- The span is padding of a layout, apart from its blocks and from what the program holds. -/
structure Pads (l : Layout) (held : List Span) (pad : Span) : Prop where
  short : ¬32 ∣ pad.start ∧ pad.start < pad.stop ∧ pad.stop < pad.start + 32
  appended : ∃ growth ∈ l.growths, growth.offset = pad.stop
  followed : Covered l.blocks pad.stop
  below : pad.stop ≤ l.brk
  clear : ∀ i, pad.Has i → ¬Covered l.blocks i
  spare : ∀ i, pad.Has i → ¬Span.Any held i

namespace Pads

variable {pad : Span} {size brk : Nat}

theorem recut (h : Pads l held pad) (recuts : l.Recuts l') : Pads l' held pad where
  short := h.short
  appended := recuts.growths ▸ h.appended
  followed := (recuts.covered _).mpr h.followed
  below := recuts.brk ▸ h.below
  clear i has covered := h.clear i has ((recuts.covered i).mp covered)
  spare := h.spare

theorem append (h : Pads l held pad) (appends : l.Appends size l') : Pads l' held pad where
  short := h.short
  appended := by
    obtain ⟨growth, hg, same⟩ := h.appended
    exact ⟨growth, appends.growths ▸ List.mem_cons_of_mem _ hg, same⟩
  followed := (appends.covered _).mpr (.inl h.followed)
  below := Nat.le_trans h.below (Grows.brk_le (.inr ⟨size, appends⟩))
  clear i has covered := by
    cases (appends.covered i).mp covered with
    | inl covered => exact h.clear i has covered
    | inr inside =>
        have low : l.brk ≤ Word.roundUp l.brk 32 := Word.le_roundUp (by decide)
        exact absurd (Nat.lt_of_lt_of_le has.2 (Nat.le_trans h.below low)) (Nat.not_lt.mpr inside.1)
  spare := h.spare

theorem new (appends : l.Appends size l') (ascending : Ascending 0 l.brk l.blocks)
    (used : ∀ i, Span.Any held i → i < l.brk) (off : l.brk < Word.roundUp l.brk 32) :
    Pads l' held ⟨l.brk, Word.roundUp l.brk 32⟩ where
  short := by
    have grid := Word.dvd_roundUp l.brk 32
    have high : Word.roundUp l.brk 32 < l.brk + 32 := Word.roundUp_lt (by decide)
    exact ⟨by dsimp only; omega, off, high⟩
  appended := ⟨_, appends.growths ▸ List.mem_cons_self, rfl⟩
  followed :=
    (appends.covered _).mpr (.inr ⟨Nat.le_refl _, Nat.lt_add_of_pos_right appends.positive⟩)
  below := appends.brk ▸ Nat.le_add_right _ _
  clear i has covered := by
    cases (appends.covered i).mp covered with
    | inl covered => exact absurd (ascending.lt_of_covered covered) (Nat.not_lt.mpr has.1)
    | inr inside => exact absurd has.2 (Nat.not_lt.mpr inside.1)
  spare i has any := absurd (used i any) (Nat.not_lt.mpr has.1)

theorem moveBreak (h : Pads l held pad) (above : Ascending 0 brk l.blocks) :
    Pads { l with brk } ((⟨l.brk, brk⟩ :: held).map (·.below brk)) pad where
  short := h.short
  appended := h.appended
  followed := h.followed
  below := Nat.le_of_lt (above.lt_of_covered h.followed)
  clear := h.clear
  spare i has any := by
    cases (Span.any_below.mp any).2 with
    | inl low => exact absurd (Nat.lt_of_lt_of_le has.2 h.below) (Nat.not_lt.mpr low)
    | inr old => exact h.spare i has old

end Pads

/-- The blocks, the held spans and the padding fill a layout up to its break. -/
structure Balanced (l : Layout) (held pads : List Span) : Prop where
  filled : ∀ i, i < l.brk ↔ Covered l.blocks i ∨ Span.Any held i ∨ Span.Any pads i
  padded : ∀ pad ∈ pads, Pads l held pad
  disjoint : pads.Pairwise Span.Disjoint

namespace Balanced

theorem empty (base capacity : Nat) : Balanced (.empty base capacity) [] [] where
  filled i := by simp [Layout.empty, Covered, Span.Any]
  padded pad hp := by cases hp
  disjoint := List.Pairwise.nil

theorem recut (h : Balanced l held pads) (recuts : l.Recuts l') : Balanced l' held pads where
  filled i := by rw [recuts.brk, recuts.covered, h.filled]
  padded pad hp := (h.padded pad hp).recut recuts
  disjoint := h.disjoint

theorem append {size : Nat} (h : Balanced l held pads) (appends : l.Appends size l')
    (ascending : Ascending 0 l.brk l.blocks) :
    Balanced l' held (Span.between l.brk (Word.roundUp l.brk 32) ++ pads) where
  filled i := by
    have old := h.filled i
    have low : l.brk ≤ Word.roundUp l.brk 32 := Word.le_roundUp (by decide)
    rw [Span.any_append, Span.any_between, appends.brk, appends.covered]
    grind
  padded pad hp := by
    cases List.mem_append.mp hp with
    | inl new =>
        obtain ⟨rfl, off⟩ := Span.mem_between.mp new
        exact Pads.new appends ascending (fun i any => (h.filled i).mpr (.inr (.inl any))) off
    | inr old => exact (h.padded pad old).append appends
  disjoint := by
    refine List.pairwise_append.mpr ⟨?_, h.disjoint, ?_⟩
    · unfold Span.between
      split
      · exact List.pairwise_singleton _ _
      · exact List.Pairwise.nil
    · intro new hn old ho i first second
      obtain ⟨rfl, -⟩ := Span.mem_between.mp hn
      have below := Nat.lt_of_lt_of_le second.2 (h.padded old ho).below
      exact absurd below (Nat.not_lt.mpr first.1)

theorem moveBreak {brk : Nat} (h : Balanced l held pads) (above : Ascending 0 brk l.blocks) :
    Balanced { l with brk } ((⟨l.brk, brk⟩ :: held).map (·.below brk)) pads where
  filled i := by
    have old := h.filled i
    have covered : Covered l.blocks i → i < brk := above.lt_of_covered
    have pad : Span.Any pads i → i < brk := by
      rintro ⟨pad, hp, has⟩
      exact Nat.lt_trans has.2 (above.lt_of_covered (h.padded pad hp).followed)
    rw [Span.any_below]
    grind
  padded pad hp := (h.padded pad hp).moveBreak above
  disjoint := h.disjoint

end Balanced

theorem heldAfter_of_ne (other : ∀ increment, op ≠ .sbrk increment) (before after : Nat)
    (reply : Reply) : heldAfter held before after op reply = held := by
  cases op with
  | sbrk increment => exact absurd rfl (other increment)
  | _ => rfl

theorem padding_of_same (same : (s.serve request).allocator.growths = s.allocator.growths) :
    s.padding request = [] := by
  rw [padding, same]
  split
  · rfl
  · next growth older eq =>
      rw [if_neg]
      intro tail
      exact List.cons_ne_self growth older (eq.symm.trans tail.symm)

theorem padding_of_cons {growth : Growth}
    (grown : (s.serve request).allocator.growths = growth :: s.allocator.growths) :
    s.padding request = Span.between s.allocator.heap.brk growth.offset := by
  simp only [padding, grown, if_true]

theorem start_of_padding {pad : Span} (h : pad ∈ s.padding request) :
    pad.start = s.allocator.heap.brk := by
  simp only [padding] at h
  split at h
  · cases h
  · split at h
    · rw [(Span.mem_between.mp h).1]
    · cases h

namespace Sound

theorem balanced_recut {result : Reply × Layout} (h : Sound s l) (advance : Advance s op l result)
    (balanced : Balanced l s.held pads) (recuts : l.Recuts result.2)
    (held : (s.serve (.operation op)).held = s.held) :
    Balanced result.2 (s.serve (.operation op)).held (s.padding (.operation op) ++ pads) ∧
      s.Moves (.operation op) := by
  have growths : (s.serve (.operation op)).allocator.growths = s.allocator.growths := by
    rw [advance.sound.realizes.growths, recuts.growths, h.realizes.growths]
  rw [padding_of_same growths, held]
  refine ⟨balanced.recut recuts, .inl ⟨?_, growths⟩⟩
  rw [advance.sound.realizes.brk, recuts.brk, h.realizes.brk]

theorem balanced_sbrk {increment : Int} (h : Sound s l)
    (advance : Advance s (.sbrk increment) l (l.answer (.sbrk increment)))
    (balanced : Balanced l s.held pads) :
    Balanced (l.answer (.sbrk increment)).2 (s.serve (.operation (.sbrk increment))).held
        (s.padding (.operation (.sbrk increment)) ++ pads) ∧
      s.Moves (.operation (.sbrk increment)) := by
  have brk := h.realizes.brk
  have held : (s.serve (.operation (.sbrk increment))).held = heldAfter s.held
    s.allocator.heap.brk (s.serve (.operation (.sbrk increment))).allocator.heap.brk
    (.sbrk increment) (s.reply (.operation (.sbrk increment))) := rfl
  simp only [answer] at advance ⊢
  cases moved : l.moveBreak increment with
  | none =>
      rw [moved] at advance
      apply h.balanced_recut advance balanced (Recuts.refl l)
      rw [held, advance.replied]
      rfl
  | some l' =>
      rw [moved] at advance
      have eq := moveBreak_eq_some moved
      have after := advance.sound.realizes.brk
      have growths : (s.serve (.operation (.sbrk increment))).allocator.growths =
          s.allocator.growths := by
        rw [advance.sound.realizes.growths, h.realizes.growths, eq]
      have balanced' := balanced.moveBreak (eq ▸ advance.sound.realizes.ascending)
      rw [padding_of_same growths, held, advance.replied, after, brk]
      refine ⟨?_, .inr (.inl ⟨increment, rfl, ?_, ?_, growths⟩)⟩
      · rw [eq]
        exact balanced'
      · rw [advance.replied, h.realizes.base, brk]
        rfl
      · rw [after, brk, brk_of_moveBreak moved]

theorem balanced_operation {result : Reply × Layout} (h : Sound s l) (answers : l.Answers op result)
    (advance : Advance s op l result) (balanced : Balanced l s.held pads) :
    Balanced result.2 (s.serve (.operation op)).held (s.padding (.operation op) ++ pads) ∧
      s.Moves (.operation op) := by
  rcases answers.change h.realizes.ascending with ⟨other, grows⟩ | ⟨increment, rfl, rfl⟩
  · have brk := h.realizes.brk
    have held : (s.serve (.operation op)).held = s.held := heldAfter_of_ne other ..
    rcases grows with recuts | ⟨size, appends⟩
    · exact h.balanced_recut advance balanced recuts held
    · have growths := advance.sound.realizes.growths
      rw [appends.growths, ← h.realizes.growths, ← brk] at growths
      have balanced' := balanced.append appends h.realizes.ascending
      rw [← brk] at balanced'
      rw [padding_of_cons growths, held]
      refine ⟨balanced', .inr (.inr ⟨?_, size, growths, ?_⟩)⟩
      · rintro increment eq
        cases eq
        exact other increment rfl
      · rw [advance.sound.realizes.brk, appends.brk, brk]
  · exact h.balanced_sbrk advance balanced

/-- What a step of a careful program preserves. -/
theorem balanced_step (h : Sound s l) (careful : s.Careful request)
    (balanced : Balanced l s.held pads) :
    ∃ l', Sound (s.serve request) l' ∧
      Balanced l' (s.serve request).held (s.padding request ++ pads) ∧ s.Moves request := by
  cases request with
  | operation op =>
      obtain ⟨result, answers, advance⟩ := h.operation op fun p => careful.2 op p rfl
      exact ⟨result.2, advance.sound, h.balanced_operation answers advance balanced⟩
  | access access =>
      have same : (s.serve (.access access)).held = s.held ∧
          (s.serve (.access access)).allocator.growths = s.allocator.growths ∧
          (s.serve (.access access)).allocator.heap.brk = s.allocator.heap.brk := by
        cases serve_access s access with
        | inl same =>
            rw [same]
            exact ⟨rfl, rfl, rfl⟩
        | inr changed =>
            rw [changed]
            exact ⟨rfl, rfl, rfl⟩
      obtain ⟨held, growths, brk⟩ := same
      refine ⟨l, h.access careful.1, ?_, .inl ⟨brk, growths⟩⟩
      rw [padding_of_same growths, held]
      exact balanced

theorem disjoint_parts (h : Sound s l) (balanced : Balanced l s.held pads) :
    (s.parts l.blocks pads).Pairwise Span.Disjoint := by
  refine List.pairwise_append.mpr ⟨?_,
    List.pairwise_append.mpr ⟨h.books.disjoint, balanced.disjoint, ?_⟩, ?_⟩
  · apply List.pairwise_map.mpr
    apply h.realizes.ascending.ordered.imp
    intro b c order i first second
    exact absurd (Nat.lt_of_lt_of_le first.2 order) (Nat.not_lt.mpr second.1)
  · intro span hs pad hp i first second
    exact (balanced.padded pad hp).spare i second ⟨span, hs, first⟩
  · intro part hp other ho i first second
    obtain ⟨b, hb, rfl⟩ := List.mem_map.mp hp
    cases List.mem_append.mp ho with
    | inl held => exact h.books.clear other held i second b hb first
    | inr pad => exact (balanced.padded other pad).clear i second ⟨b, hb, first⟩

theorem accounted (h : Sound s l) (balanced : Balanced l s.held pads) :
    s.Accounted l.blocks pads := by
  have filled : ∀ i, i < s.allocator.heap.brk ↔ Span.Any (s.parts l.blocks pads) i := by
    intro i
    have blocks : Span.Any (l.blocks.map Block.span) i ↔ Covered l.blocks i := Span.any_map
    rw [h.realizes.brk, balanced.filled, parts, Span.any_append, Span.any_append, blocks]
  have disjoint := h.disjoint_parts balanced
  refine ⟨(h.realizes.wellFormed h.books.apart).walk, disjoint, filled,
    Span.sum_length_eq disjoint filled, fun pad hp => (balanced.padded pad hp).short, ?_, ?_⟩
  · intro pad hp
    rw [h.realizes.growths]
    exact (balanced.padded pad hp).appended
  · intro pad hp
    obtain ⟨-, positive, -⟩ := (balanced.padded pad hp).short
    obtain ⟨b, hb, low, high⟩ := (balanced.padded pad hp).followed
    refine ⟨b, hb, ?_⟩
    by_contra later
    -- a block that starts before the end of the padding would cover the last byte of it
    exact (balanced.padded pad hp).clear (pad.stop - 1) ⟨by omega, by omega⟩
      ⟨b, hb, by omega, by omega⟩

end Sound

theorem Ledger.balanced (fresh : heap.Fresh) (run : Ledger Honest heap s pads) :
    ∃ l, Sound s l ∧ Balanced l s.held pads := by
  induction run with
  | start => exact ⟨_, Sound.start fresh, Balanced.empty _ _⟩
  | step _ honest ih =>
      obtain ⟨l, sound, balanced⟩ := ih
      obtain ⟨l', sound', balanced', -⟩ :=
        sound.balanced_step (sound.careful_of_honest honest) balanced
      exact ⟨l', sound', balanced'⟩

theorem any_heldAfter {brk : Nat} {reply : Reply}
    (h : Span.Any (heldAfter held brk brk op reply) i) : Span.Any held i := by
  unfold heldAfter at h
  split at h
  · obtain ⟨below, above | old⟩ := Span.any_below.mp h
    · exact absurd below (Nat.not_lt.mpr above)
    · exact old
  · exact h

theorem any_held_of_settled (moves : s.Moves request) (settled : s.Settled request)
    (any : Span.Any (s.serve request).held i) : Span.Any s.held i := by
  cases request with
  | access access => exact any
  | operation op =>
      by_cases other : ∀ increment, op ≠ .sbrk increment
      · have held : (s.serve (.operation op)).held = s.held := heldAfter_of_ne other ..
        rw [held] at any
        exact any
      · obtain ⟨increment, eq⟩ := not_forall_not.mp other
        subst eq
        have same : (s.serve (.operation (.sbrk increment))).allocator.heap.brk =
            s.allocator.heap.brk := by
          rcases moves with ⟨same, -⟩ | ⟨k, eq, -, moved, -⟩ | ⟨other, -⟩
          · exact same
          · rw [settled.2 k eq] at moved
            omega
          · exact absurd rfl (other increment)
        have held : (s.serve (.operation (.sbrk increment))).held =
            heldAfter s.held s.allocator.heap.brk
              (s.serve (.operation (.sbrk increment))).allocator.heap.brk (.sbrk increment)
              (s.reply (.operation (.sbrk increment))) := rfl
        rw [held, same] at any
        exact any_heldAfter any

theorem contiguous_of_balanced (h : Sound s l) (balanced : Balanced l held [])
    (none : ∀ i, ¬Span.Any held i) : Contiguous 0 l.brk l.blocks := by
  apply h.realizes.ascending.contiguous
  intro i _ below
  rcases (balanced.filled i).mp below with covered | held | ⟨pad, hp, -⟩
  · exact covered
  · exact absurd held (none i)
  · cases hp

theorem step_of_settled (h : Sound s l) (balanced : Balanced l s.held [])
    (none : ∀ i, ¬Span.Any s.held i) (settled : s.Settled request) :
    ∃ l', Sound (s.serve request) l' ∧ Balanced l' (s.serve request).held [] ∧
      ∀ i, ¬Span.Any (s.serve request).held i := by
  obtain ⟨l', sound, balanced', moves⟩ :=
    h.balanced_step (h.careful_of_honest settled.1) balanced
  have grid : 32 ∣ s.allocator.heap.brk := by
    rw [h.realizes.brk]
    exact (contiguous_of_balanced h balanced none).dvd (Nat.dvd_zero 32)
      fun b hb => (h.realizes.ascending.mem hb).2.2.1
  have unpadded : s.padding request = [] := by
    apply List.eq_nil_iff_forall_not_mem.mpr
    intro pad hp
    have short := (balanced'.padded pad (List.mem_append_left _ hp)).short.1
    rw [start_of_padding hp] at short
    exact short grid
  rw [unpadded] at balanced'
  exact ⟨l', sound, balanced', fun i any => none i (any_held_of_settled moves settled any)⟩

theorem Reaches.settled (fresh : heap.Fresh) (run : Reaches Settled (start heap) s) :
    ∃ l, Sound s l ∧ Contiguous 0 l.brk l.blocks := by
  have steady : ∃ l, Sound s l ∧ Balanced l s.held [] ∧ ∀ i, ¬Span.Any s.held i := by
    induction run with
    | refl =>
        refine ⟨_, Sound.start fresh, Balanced.empty _ _, ?_⟩
        rintro i ⟨span, hs, -⟩
        cases hs
    | step _ settled ih =>
        obtain ⟨l, sound, balanced, none⟩ := ih
        exact step_of_settled sound balanced none settled
  obtain ⟨l, sound, balanced, none⟩ := steady
  exact ⟨l, sound, contiguous_of_balanced sound balanced none⟩

/-- Every byte below the break is accounted for after every run of an honest program, and while the
program leaves the break alone the blocks fill the used heap. -/
theorem accounting_of_honest (fresh : heap.Fresh) :
    (∀ s pads, Ledger Honest heap s pads →
      (∃ bs, s.Accounted bs pads) ∧ ∀ request, s.Honest request → s.Moves request) ∧
    ∀ s, Reaches Settled (start heap) s →
      ∃ bs, s.allocator.blocks = .ok bs ∧ Contiguous 0 s.allocator.heap.brk bs ∧
        (bs.map (·.size)).sum = s.allocator.heap.brk ∧
        (s.live = [] → bs = [] ∧ s.allocator.heap.brk = 0 ∨
          bs = [⟨0, s.allocator.heap.brk, false⟩]) := by
  constructor
  · intro s pads run
    obtain ⟨l, sound, balanced⟩ := run.balanced fresh
    refine ⟨⟨l.blocks, sound.accounted balanced⟩, ?_⟩
    intro request honest
    obtain ⟨-, -, -, moves⟩ := sound.balanced_step (sound.careful_of_honest honest) balanced
    exact moves
  · intro s run
    obtain ⟨l, sound, contiguous⟩ := run.settled fresh
    rw [sound.realizes.brk]
    refine ⟨l.blocks, (sound.realizes.wellFormed sound.books.apart).walk, contiguous, ?_, ?_⟩
    · exact (Nat.zero_add _).symm.trans contiguous.sum_size
    · intro released
      apply contiguous.eq_of_free sound.books.apart
      intro b hb
      apply Bool.eq_false_iff.mpr
      intro allocated
      have live := sound.live_of_block hb allocated
      rw [released] at live
      cases live

/-- A block is appended after the break was moved off the grid. -/
theorem accounting_of_padding :
    (∃ bs, ((tenant.serve (.operation (.sbrk 5))).serve (.operation (.allocate 70000))).Accounted bs
      [⟨65541, 65568⟩]) ∧
      ∃ bs, tenant.allocator.blocks = .ok bs ∧ (bs.map (·.size)).sum = 65536 := by
  obtain ⟨every, settled⟩ := accounting_of_honest mebibyte_fresh
  have allocates : (start mebibyte).Honest (.operation (.allocate 256)) := honest_of_no_pointer rfl
  have first : Ledger Honest mebibyte tenant _ := Ledger.start.step allocates
  have moved : Ledger Honest mebibyte (tenant.serve (.operation (.sbrk 5))) _ :=
    first.step (honest_of_no_pointer rfl)
  have run : Ledger Honest mebibyte
      ((tenant.serve (.operation (.sbrk 5))).serve (.operation (.allocate 70000))) _ :=
    moved.step (honest_of_no_pointer rfl)
  have appended : (tenant.serve (.operation (.sbrk 5))).padding (.operation (.allocate 70000)) =
      [⟨65541, 65568⟩] := by decide +kernel
  have unpadded : tenant.padding (.operation (.sbrk 5)) = [] ∧
      (start mebibyte).padding (.operation (.allocate 256)) = [] := by decide +kernel
  rw [appended, unpadded.1, unpadded.2] at run
  refine ⟨(every _ _ run).1, ?_⟩
  have steady : Reaches Settled (start mebibyte) tenant :=
    .step .refl ⟨honest_of_no_pointer rfl, fun increment eq => by cases eq⟩
  obtain ⟨bs, walk, -, total, -⟩ := settled tenant steady
  have brk : tenant.allocator.heap.brk = 65536 := by decide +kernel
  exact ⟨bs, walk, brk ▸ total⟩

end Client

end Confine
