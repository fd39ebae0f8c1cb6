import Confine.Allocator.Operations
import Mathlib.Algebra.GroupWithZero.Nat
import Mathlib.Data.List.Chain

/-! # Layouts of a heap

What the block list says about a heap, without its bytes: which blocks there are, how far the break
is, and where both may go.  Every operation of the allocator replaces one block by the pieces it is
cut into and merges what has become mergeable, so that `compact` after `replaceAt` describes all of
them.
-/

namespace Confine

namespace Block

def stop (b : Block) : Nat :=
  b.offset + b.size

abbrev Covers (b : Block) (i : Nat) : Prop :=
  b.offset ≤ i ∧ i < b.stop

def Covered (bs : List Block) (i : Nat) : Prop :=
  ∃ b ∈ bs, b.Covers i

/-- Both blocks are free, and the second starts where the first stops. -/
def Joins (b c : Block) : Prop :=
  b.allocated = false ∧ c.allocated = false ∧ b.stop = c.offset

instance (b c : Block) : Decidable (b.Joins c) :=
  inferInstanceAs (Decidable (_ ∧ _ ∧ _))

/-- A block in front of a list, merged with the first one there if the two join. -/
def absorb (b : Block) : List Block → List Block
  | [] => [b]
  | c :: rest => if b.Joins c then { b with size := b.size + c.size } :: rest else b :: c :: rest

/-- What is made of a block when `required` bytes of it are allocated behind a gap. -/
def pieces (b : Block) (gap required : Nat) : List Block :=
  (if gap = 0 then [] else [⟨b.offset, gap, false⟩]) ++
    if b.size - gap ≤ required + 32 then [⟨b.offset + gap, b.size - gap, true⟩]
    else [⟨b.offset + gap, required, true⟩,
      ⟨b.offset + gap + required, b.size - gap - required, false⟩]

/-- What splitting leaves of a block in front of a list. -/
def cut (b : Block) (required : Nat) (rest : List Block) : List Block :=
  if b.size ≤ required + 32 then b :: rest
  else { b with size := required } ::
    absorb ⟨b.offset + required, b.size - required, false⟩ rest

/-- The blocks lie one behind the other between two offsets, on a grid of 32 bytes. -/
def Ascending (start stop : Nat) : List Block → Prop
  | [] => start ≤ stop
  | b :: rest =>
      start ≤ b.offset ∧ 32 ∣ b.offset ∧ 32 ∣ b.size ∧ 32 ≤ b.size ∧ Ascending b.stop stop rest

/-- No two neighbours of the list join. -/
abbrev Apart (bs : List Block) : Prop :=
  bs.IsChain fun b c => ¬b.Joins c

/-- The list with all neighbours merged that join. -/
def compact : List Block → List Block
  | [] => []
  | b :: rest => b.absorb (compact rest)

def replaceAt (offset : Nat) (f : Block → List Block) (bs : List Block) : List Block :=
  bs.flatMap fun b => if b.offset = offset then f b else [b]

section Ascending

variable {s t : Nat} {b c : Block} {bs cs : List Block}

theorem Ascending.le (h : Ascending s t bs) : s ≤ t := by
  induction bs generalizing s with
  | nil => exact h
  | cons b rest ih =>
      have := ih h.2.2.2.2
      have := h.1
      simp only [stop] at *
      omega

theorem Ascending.mono {s' t' : Nat} (h : Ascending s t bs) (hs : s' ≤ s) (ht : t ≤ t') :
    Ascending s' t' bs := by
  induction bs generalizing s s' with
  | nil => exact Nat.le_trans hs (Nat.le_trans h ht)
  | cons b rest ih =>
      obtain ⟨low, grid, gridSize, large, back⟩ := h
      exact ⟨Nat.le_trans hs low, grid, gridSize, large, ih back (Nat.le_refl _)⟩

theorem ascending_append :
    Ascending s t (bs ++ cs) ↔ ∃ m, Ascending s m bs ∧ Ascending m t cs := by
  induction bs generalizing s with
  | nil =>
      constructor
      · exact fun h => ⟨s, Nat.le_refl s, h⟩
      · rintro ⟨m, hm, h⟩
        exact h.mono hm (Nat.le_refl t)
  | cons b rest ih =>
      constructor
      · rintro ⟨h₁, h₂, h₃, h₄, h₅⟩
        obtain ⟨m, hm, h⟩ := ih.mp h₅
        exact ⟨m, ⟨h₁, h₂, h₃, h₄, hm⟩, h⟩
      · rintro ⟨m, ⟨h₁, h₂, h₃, h₄, hm⟩, h⟩
        exact ⟨h₁, h₂, h₃, h₄, ih.mpr ⟨m, hm, h⟩⟩

theorem Ascending.mem (h : Ascending s t bs) (hb : b ∈ bs) :
    s ≤ b.offset ∧ 32 ∣ b.offset ∧ 32 ∣ b.size ∧ 32 ≤ b.size ∧ b.stop ≤ t := by
  induction bs generalizing s with
  | nil => cases hb
  | cons c rest ih =>
      cases hb with
      | head => exact ⟨h.1, h.2.1, h.2.2.1, h.2.2.2.1, h.2.2.2.2.le⟩
      | tail _ hb =>
          obtain ⟨low, grid⟩ := ih h.2.2.2.2 hb
          have := h.1
          simp only [stop] at low
          exact ⟨by omega, grid⟩

theorem Ascending.lt_of_covered {i : Nat} (h : Ascending s t bs) (covered : Covered bs i) :
    i < t := by
  obtain ⟨b, hb, covers⟩ := covered
  exact Nat.lt_of_lt_of_le covers.2 (h.mem hb).2.2.2.2

theorem Ascending.disjoint (h : Ascending s t bs) (hb : b ∈ bs) (hc : c ∈ bs) :
    b = c ∨ b.stop ≤ c.offset ∨ c.stop ≤ b.offset := by
  induction bs generalizing s with
  | nil => cases hb
  | cons d rest ih =>
      have tail := h.2.2.2.2
      cases hb with
      | head =>
          cases hc with
          | head => exact .inl rfl
          | tail _ hc => exact .inr (.inl (tail.mem hc).1)
      | tail _ hb =>
          cases hc with
          | head => exact .inr (.inr (tail.mem hb).1)
          | tail _ hc => exact ih tail hb hc

theorem Ascending.eq_of_offset (h : Ascending s t bs) (hb : b ∈ bs) (hc : c ∈ bs)
    (same : b.offset = c.offset) : b = c := by
  have := (h.mem hb).2.2.2.1
  have := (h.mem hc).2.2.2.1
  rcases h.disjoint hb hc with eq | below | above
  · exact eq
  · simp only [stop] at below
    omega
  · simp only [stop] at above
    omega

theorem Ascending.length_le (h : Ascending s t bs) : s + 32 * bs.length ≤ t := by
  induction bs generalizing s with
  | nil => exact h
  | cons b rest ih =>
      have := ih h.2.2.2.2
      have := h.1
      have := h.2.2.2.1
      simp only [stop, List.length_cons] at *
      omega

theorem Ascending.absorb (h : Ascending s t (b :: bs)) : Ascending s t (b.absorb bs) := by
  cases bs with
  | nil => exact h
  | cons c rest =>
      simp only [Block.absorb]
      split
      · next joins =>
          obtain ⟨h₁, h₂, h₃, h₄, -, -, h₅, -, h₆⟩ := h
          have touch := joins.2.2
          have same : ({ b with size := b.size + c.size } : Block).stop = c.stop := by
            simp only [stop] at *
            omega
          exact ⟨h₁, h₂, Nat.dvd_add h₃ h₅, Nat.le_add_right_of_le h₄, same ▸ h₆⟩
      · exact h

theorem Ascending.compact (h : Ascending s t bs) : Ascending s t (compact bs) := by
  induction bs generalizing s with
  | nil => exact h
  | cons b rest ih =>
      exact Ascending.absorb ⟨h.1, h.2.1, h.2.2.1, h.2.2.2.1, ih h.2.2.2.2⟩

/-- Cutting a block into pieces that lie in it keeps the list ascending. -/
theorem Ascending.replaceAt {o : Nat} {f : Block → List Block} (h : Ascending s t bs)
    (hf : ∀ b ∈ bs, b.offset = o → Ascending b.offset b.stop (f b)) :
    Ascending s t (replaceAt o f bs) := by
  induction bs generalizing s with
  | nil => exact h
  | cons b rest ih =>
      obtain ⟨h₁, h₂, h₃, h₄, h₅⟩ := h
      have tail := ih h₅ fun c hc => hf c (List.mem_cons_of_mem b hc)
      simp only [Block.replaceAt, List.flatMap_cons] at tail ⊢
      refine ascending_append.mpr ⟨b.stop, ?_, tail⟩
      split
      · next eq => exact (hf b List.mem_cons_self eq).mono h₁ (Nat.le_refl _)
      · exact ⟨h₁, h₂, h₃, h₄, Nat.le_refl _⟩

theorem ascending_pieces {gap required : Nat} (offset : 32 ∣ b.offset) (size : 32 ∣ b.size)
    (hgap : 32 ∣ gap) (hrequired : 32 ∣ required) (large : 32 ≤ required)
    (room : gap + required ≤ b.size) : Ascending b.offset b.stop (b.pieces gap required) := by
  unfold pieces
  refine ascending_append.mpr ⟨b.offset + gap, ?_, ?_⟩
  · split
    · exact Nat.le_add_right _ _
    · simp only [Ascending, stop]
      omega
  · split <;> simp only [Ascending, stop] <;> omega

end Ascending

section Compact

variable {b c : Block} {bs cs pre : List Block}

theorem absorb_eq_cons (b : Block) (bs : List Block) :
    ∃ size rest, b.absorb bs = ⟨b.offset, size, b.allocated⟩ :: rest := by
  cases bs with
  | nil => exact ⟨b.size, [], rfl⟩
  | cons c rest =>
      simp only [absorb]
      split
      · exact ⟨b.size + c.size, rest, rfl⟩
      · exact ⟨b.size, c :: rest, rfl⟩

theorem absorb_of_allocated (h : b.allocated = true) (bs : List Block) : b.absorb bs = b :: bs := by
  cases bs with
  | nil => rfl
  | cons c rest => exact if_neg fun joins => by simp [joins.1] at h

theorem absorb_allocated_cons (h : c.allocated = true) (bs : List Block) :
    b.absorb (c :: bs) = b :: c :: bs :=
  if_neg fun joins => by simp [joins.2.1] at h

theorem absorb_eq_self (h : Apart (b :: bs)) : b.absorb bs = b :: bs := by
  cases bs with
  | nil => rfl
  | cons c rest => exact if_neg (List.isChain_cons_cons.mp h).1

theorem apart_absorb (h : Apart bs) : Apart (b.absorb bs) := by
  cases bs with
  | nil => exact List.isChain_singleton b
  | cons c rest =>
      simp only [absorb]
      split
      · next joins =>
          refine List.IsChain.imp_head ?_ h
          rintro d hd ⟨-, free, touch⟩
          refine hd ⟨joins.2.1, free, ?_⟩
          have := joins.2.2
          simp only [stop] at *
          omega
      · next ne => exact List.isChain_cons_cons.mpr ⟨ne, h⟩

theorem apart_compact (bs : List Block) : Apart (compact bs) := by
  induction bs with
  | nil => exact List.isChain_nil
  | cons b rest ih => exact apart_absorb ih

theorem compact_eq_self (h : Apart bs) : compact bs = bs := by
  induction bs with
  | nil => rfl
  | cons b rest ih =>
      rw [compact, ih h.of_cons, absorb_eq_self h]

/-- The list in front of a compact one stays as it is up to its last block. -/
theorem compact_append (h : Apart (pre ++ [b])) (bs : List Block) :
    compact (pre ++ b :: bs) = pre ++ b.absorb (compact bs) := by
  induction pre with
  | nil => rfl
  | cons c rest ih =>
      rw [List.cons_append, compact, ih h.of_cons]
      cases rest with
      | nil =>
          have ne : ¬c.Joins b := (List.isChain_cons_cons.mp h).1
          obtain ⟨size, tail, eq⟩ := absorb_eq_cons b (compact bs)
          rw [List.nil_append, eq]
          exact if_neg ne
      | cons d rest => exact if_neg (List.isChain_cons_cons.mp h).1

theorem absorb_front (b c : Block) : ∃ front, ∀ bs, b.absorb (c :: bs) = front ++ bs := by
  by_cases joins : b.Joins c
  · exact ⟨[{ b with size := b.size + c.size }], fun bs => if_pos joins⟩
  · exact ⟨[b, c], fun bs => if_neg joins⟩

/-- An allocated block keeps apart what lies before and behind it. -/
theorem compact_append_cons (hb : b.allocated = true) (pre bs : List Block) :
    compact (pre ++ b :: bs) = compact pre ++ b :: compact bs := by
  induction pre with
  | nil => exact absorb_of_allocated hb _
  | cons c rest ih =>
      rw [List.cons_append, compact, ih, compact]
      cases compact rest with
      | nil => rw [List.nil_append, absorb_allocated_cons hb]; rfl
      | cons d more =>
          obtain ⟨front, merged⟩ := absorb_front c d
          rw [List.cons_append, merged, merged, List.append_assoc]

theorem compact_append_allocated (h : Apart pre) (hb : b.allocated = true) (bs : List Block) :
    compact (pre ++ b :: bs) = pre ++ b :: compact bs := by
  rw [compact_append_cons hb, compact_eq_self h]

/-- A block taken in front of a list leaves a compact list when the rest of it is merged. -/
theorem compact_pieces {required : Nat} (front : Apart pre) (back : Apart bs) :
    compact (pre ++ (b.pieces 0 required ++ bs)) =
      pre ++ cut { b with allocated := true } required bs := by
  simp only [pieces, cut, if_true, List.nil_append, Nat.add_zero, Nat.sub_zero]
  split
  · rw [List.singleton_append, compact_append_allocated front rfl, compact_eq_self back]
  · rw [List.cons_append, compact_append_allocated front rfl, List.singleton_append, compact,
      compact_eq_self back]

theorem pieces_gap {gap : Nat} (h : gap ≠ 0) (required : Nat) :
    b.pieces gap required =
      ⟨b.offset, gap, false⟩ :: pieces ⟨b.offset + gap, b.size - gap, true⟩ 0 required := by
  simp only [pieces, if_neg h, if_true, List.nil_append, List.singleton_append, Nat.add_zero,
    Nat.sub_zero]

theorem mem_absorb_of_allocated (h : c.allocated = true) :
    c ∈ b.absorb bs ↔ c = b ∨ c ∈ bs := by
  cases bs with
  | nil => simp [absorb]
  | cons d rest =>
      simp only [absorb]
      split
      · next joins =>
          have notMerged : c ≠ { b with size := b.size + d.size } := by
            rintro rfl
            simp [joins.1] at h
          have notFirst : c ≠ b := by
            rintro rfl
            simp [joins.1] at h
          have notSecond : c ≠ d := by
            rintro rfl
            simp [joins.2.1] at h
          simp only [List.mem_cons, notMerged, notFirst, notSecond, false_or]
      · simp only [List.mem_cons]

theorem mem_compact_of_allocated (h : c.allocated = true) : c ∈ compact bs ↔ c ∈ bs := by
  induction bs with
  | nil => rfl
  | cons b rest ih => rw [compact, mem_absorb_of_allocated h, ih, List.mem_cons]

@[simp] theorem covered_cons {i : Nat} : Covered (b :: bs) i ↔ b.Covers i ∨ Covered bs i := by
  simp only [Covered, List.mem_cons, exists_eq_or_imp]

theorem covered_append {i : Nat} : Covered (bs ++ cs) i ↔ Covered bs i ∨ Covered cs i := by
  simp only [Covered, List.mem_append, or_and_right, exists_or]

theorem covered_singleton {i : Nat} : Covered [b] i ↔ b.Covers i := by
  simp only [Covered, List.mem_singleton, exists_eq_left]

theorem covered_absorb {i : Nat} : Covered (b.absorb bs) i ↔ Covered (b :: bs) i := by
  cases bs with
  | nil => rfl
  | cons c rest =>
      simp only [absorb]
      split
      · next joins =>
          have touch := joins.2.2
          simp only [covered_cons, ← or_assoc]
          apply or_congr_left
          simp only [Covers, stop] at touch ⊢
          omega
      · rfl

theorem covered_compact {i : Nat} : Covered (compact bs) i ↔ Covered bs i := by
  induction bs with
  | nil => rfl
  | cons b rest ih => rw [compact, covered_absorb, covered_cons, ih, covered_cons]

theorem covered_pieces {gap required i : Nat} (room : gap + required ≤ b.size) :
    Covered (b.pieces gap required) i ↔ b.Covers i := by
  have front : Covered (if gap = 0 then [] else [⟨b.offset, gap, false⟩]) i ↔
      b.offset ≤ i ∧ i < b.offset + gap := by
    split
    · next zero => simp [Covered, zero]
    · exact covered_singleton
  rw [pieces, covered_append, front]
  split
  · rw [covered_singleton]
    simp only [Covers, stop]
    omega
  · rw [covered_cons, covered_singleton]
    simp only [Covers, stop]
    omega

theorem mem_replaceAt {o : Nat} {f : Block → List Block} :
    c ∈ replaceAt o f bs ↔ (c ∈ bs ∧ c.offset ≠ o) ∨ ∃ b ∈ bs, b.offset = o ∧ c ∈ f b := by
  simp only [replaceAt, List.mem_flatMap]
  constructor
  · rintro ⟨b, hb, hc⟩
    split at hc
    · next eq => exact .inr ⟨b, hb, eq, hc⟩
    · next ne =>
        rw [List.mem_singleton] at hc
        subst hc
        exact .inl ⟨hb, ne⟩
  · rintro (⟨hc, ne⟩ | ⟨b, hb, eq, hc⟩)
    · exact ⟨c, hc, by rw [if_neg ne]; exact List.mem_singleton_self c⟩
    · exact ⟨b, hb, by rw [if_pos eq]; exact hc⟩

theorem covered_replaceAt {o i : Nat} {f : Block → List Block}
    (h : ∀ b ∈ bs, b.offset = o → (Covered (f b) i ↔ b.Covers i)) :
    Covered (replaceAt o f bs) i ↔ Covered bs i := by
  induction bs with
  | nil => rfl
  | cons b rest ih =>
      have tail := ih fun c hc => h c (List.mem_cons_of_mem b hc)
      rw [replaceAt, List.flatMap_cons, covered_append, covered_cons]
      apply or_congr _ tail
      split
      · next same => exact h b List.mem_cons_self same
      · exact covered_singleton

theorem replaceAt_append {s t : Nat} (h : Ascending s t (pre ++ b :: bs)) (f : Block → List Block) :
    replaceAt b.offset f (pre ++ b :: bs) = pre ++ f b ++ bs := by
  obtain ⟨m, front, low, -, -, large, back⟩ := ascending_append.mp h
  have keep (cs : List Block) (hne : ∀ c ∈ cs, c.offset ≠ b.offset) :
      (cs.flatMap fun c => if c.offset = b.offset then f c else [c]) = cs := by
    induction cs with
    | nil => rfl
    | cons c rest ih =>
        rw [List.flatMap_cons, if_neg (hne c List.mem_cons_self),
          ih fun d hd => hne d (List.mem_cons_of_mem c hd)]
        rfl
  rw [replaceAt, List.flatMap_append, List.flatMap_cons, if_pos rfl, keep, keep]
  · simp
  · intro c hc
    have := (back.mem hc).1
    simp only [stop] at this
    omega
  · intro c hc
    have := front.mem hc
    simp only [stop] at this
    omega

end Compact

end Block

end Confine
