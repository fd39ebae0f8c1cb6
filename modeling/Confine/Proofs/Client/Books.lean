import Confine.Proofs.Layout.Accounting
import Confine.Proofs.Client

/-! # Keeping the books

A layout and what a program remembers of it agree: the live addresses are the payloads of the
allocated blocks, and no block lies in a span that the program holds.  Each operation keeps the
books, whatever it does to the free blocks.
-/

namespace Confine

open Block Layout

variable {l l' : Layout} {live : List Nat} {held : List Span} {b n : Block} {o p : Nat}

def Layout.address (l : Layout) (b : Block) : Nat :=
  l.base + (b.offset + 32)

/-- A program knows the layout of its heap. -/
structure Books (l : Layout) (live : List Nat) (held : List Span) : Prop where
  apart : Apart l.blocks
  mem_live : ∀ p, p ∈ live ↔ ∃ b ∈ l.blocks, b.allocated = true ∧ p = l.address b
  nodup : live.Nodup
  below : ∀ span ∈ held, ∀ i, span.Has i → i < l.brk
  clear : ∀ span ∈ held, ∀ i, span.Has i → ∀ b ∈ l.blocks, ¬b.Covers i
  disjoint : held.Pairwise Span.Disjoint

/-- An allocated block was allocated before, or lies in space that was vacant. -/
def Layout.Retains (l l' : Layout) : Prop :=
  ∀ b ∈ l'.blocks, b.allocated = true → b ∈ l.blocks ∨ ∀ i, b.Covers i → l.Vacant i

theorem address_inj {c : Block} (h : l.address b = l.address c) : b.offset = c.offset := by
  simp only [Layout.address] at h
  omega

namespace Books

theorem empty (base capacity : Nat) : Books (.empty base capacity) [] [] where
  apart := List.isChain_nil
  mem_live p := by simp [Layout.empty]
  nodup := List.nodup_nil
  below span hs := by cases hs
  clear span hs := by cases hs
  disjoint := List.Pairwise.nil

/-- The spans of a program stay clear of the blocks, which move into unused space only. -/
theorem clear_of_grows (h : Books l live held) (grows : l.Grows l') :
    ∀ span ∈ held, ∀ i, span.Has i → ∀ b ∈ l'.blocks, ¬b.Covers i := by
  intro span hs i hi b hb covers
  rcases grows.within ⟨b, hb, covers⟩ with ⟨c, hc, old⟩ | behind
  · exact h.clear span hs i hi c hc old
  · have := h.below span hs i hi
    omega

theorem fresh (h : Books l live held) (ascending : Ascending 0 l.brk l.blocks)
    (ascending' : Ascending 0 l'.brk l'.blocks) (takes : l.Takes l' n) : l.address n ∉ live := by
  intro old
  obtain ⟨b, hb, allocated, same⟩ := (h.mem_live _).mp old
  have offset := address_inj same
  have := (ascending.mem hb).2.2.2.1
  have := (ascending'.mem ((takes.mem n takes.allocated).mpr (.inr rfl))).2.2.2.1
  exact not_vacant ascending hb allocated (i := n.offset)
    ⟨by omega, by simp only [stop]; omega⟩
    (takes.vacant n.offset ⟨Nat.le_refl _, by simp only [stop]; omega⟩)

theorem takes (h : Books l live held) (ascending : Ascending 0 l.brk l.blocks)
    (ascending' : Ascending 0 l'.brk l'.blocks) (base : l'.base = l.base) (takes : l.Takes l' n) :
    Books l' (l.address n :: live) held where
  apart := takes.apart
  mem_live p := by
    simp only [List.mem_cons, h.mem_live, Layout.address, base]
    constructor
    · rintro (rfl | ⟨b, hb, allocated, rfl⟩)
      · exact ⟨n, (takes.mem n takes.allocated).mpr (.inr rfl), takes.allocated, rfl⟩
      · exact ⟨b, (takes.mem b allocated).mpr (.inl hb), allocated, rfl⟩
    · rintro ⟨b, hb, allocated, rfl⟩
      rcases (takes.mem b allocated).mp hb with old | rfl
      · exact .inr ⟨b, old, allocated, rfl⟩
      · exact .inl rfl
  nodup := List.nodup_cons.mpr ⟨h.fresh ascending ascending' takes, h.nodup⟩
  below span hs i hi := Nat.lt_of_lt_of_le (h.below span hs i hi) takes.grows.brk_le
  clear := h.clear_of_grows takes.grows
  disjoint := h.disjoint

theorem frees (h : Books l live held) (base : l'.base = l.base) (frees : l.Frees l' b.offset) :
    Books l' (live.filter (· ≠ l.address b)) held where
  apart := frees.apart
  mem_live p := by
    have same (c : Block) : l'.address c = l.address c := by
      rw [Layout.address, base, Layout.address]
    simp only [List.mem_filter, h.mem_live, decide_eq_true_eq, same]
    constructor
    · rintro ⟨⟨c, hc, allocated, rfl⟩, other⟩
      refine ⟨c, (frees.mem c allocated).mpr ⟨hc, fun eq => other ?_⟩, allocated, rfl⟩
      rw [Layout.address, eq, Layout.address]
    · rintro ⟨c, hc, allocated, rfl⟩
      obtain ⟨old, other⟩ := (frees.mem c allocated).mp hc
      exact ⟨⟨c, old, allocated, rfl⟩, fun eq => other (address_inj eq)⟩
  nodup := h.nodup.filter _
  below span hs i hi := frees.recuts.brk ▸ h.below span hs i hi
  clear := h.clear_of_grows (.inl frees.recuts)
  disjoint := h.disjoint

theorem moveBreak (h : Books l live held) (ascending : Ascending 0 l.brk l.blocks) (brk : Nat) :
    Books { l with brk } live ((⟨l.brk, brk⟩ :: held).map (·.below brk)) where
  apart := h.apart
  mem_live := h.mem_live
  nodup := h.nodup
  below span hs i hi := by
    obtain ⟨_, -, rfl⟩ := List.mem_map.mp hs
    exact Nat.lt_of_lt_of_le hi.2 (Nat.min_le_right _ _)
  clear span hs i hi b hb covers := by
    obtain ⟨whole, inList, rfl⟩ := List.mem_map.mp hs
    have high := Nat.lt_of_lt_of_le hi.2 (Nat.min_le_left _ _)
    rcases List.mem_cons.mp inList with rfl | old
    · have := (ascending.mem hb).2.2.2.2
      exact absurd (Nat.lt_of_lt_of_le covers.2 (Nat.le_trans this hi.1)) (Nat.lt_irrefl _)
    · exact h.clear whole old i ⟨hi.1, high⟩ b hb covers
  disjoint := by
    apply List.pairwise_map.mpr
    apply List.pairwise_cons.mpr
    constructor
    · intro span hs i first old
      have := h.below span hs i ⟨old.1, Nat.lt_of_lt_of_le old.2 (Nat.min_le_left _ _)⟩
      exact absurd (Nat.lt_of_le_of_lt first.1 this) (Nat.lt_irrefl _)
    · apply h.disjoint.imp
      intro span span' apart i first second
      exact apart i ⟨first.1, Nat.lt_of_lt_of_le first.2 (Nat.min_le_left _ _)⟩
        ⟨second.1, Nat.lt_of_lt_of_le second.2 (Nat.min_le_left _ _)⟩

end Books

end Confine
