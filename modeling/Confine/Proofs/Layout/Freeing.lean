import Confine.Proofs.Layout.Accounting
import Mathlib.Data.List.SplitBy

/-! # Freeing several blocks

A free merges at most two neighbours, so the lists between two frees depend on their order.  What
they end in does not: merging early makes no difference to what is merged later, and so freeing
blocks one after another is to mark them all and merge once.
-/

namespace Confine

namespace Block

variable {b c : Block} {bs cs run : List Block} {P Q : Nat → Prop} [DecidablePred P]
  [DecidablePred Q]

/-- The block, free if its offset is one of those. -/
def freed (P : Nat → Prop) [DecidablePred P] (b : Block) : Block :=
  if P b.offset then { b with allocated := false } else b

/-- One block in the place of a stretch of blocks. -/
def fuse : List Block → List Block
  | [] => []
  | b :: rest => [{ b with size := b.size + (rest.map size).sum }]

/-- The longest stretches of free blocks that touch, and the other blocks, each by itself. -/
def stretches (bs : List Block) : List (List Block) :=
  bs.splitBy fun b c => b.Joins c

theorem Joins.stop_eq (joins : b.Joins c) :
    ({ b with size := b.size + c.size } : Block).stop = c.stop := by
  have touch := joins.2.2
  simp only [stop] at touch ⊢
  omega

/-- Blocks that join are merged into the same one from either end. -/
theorem Joins.absorb_absorb (joins : b.Joins c) (bs : List Block) :
    absorb { b with size := b.size + c.size } bs = b.absorb (c.absorb bs) := by
  cases bs with
  | nil => exact (if_pos joins).symm
  | cons d rest =>
      have same : Joins { b with size := b.size + c.size } d ↔ c.Joins d := by
        rw [Joins, Joins, joins.stop_eq, joins.1, joins.2.1]
      by_cases next : c.Joins d
      · rw [absorb, if_pos (same.mpr next), absorb, if_pos next, absorb,
          if_pos ⟨joins.1, joins.2.1, joins.2.2⟩, Nat.add_assoc]
      · rw [absorb, if_neg (mt same.mp next), absorb, if_neg next, absorb, if_pos joins]

/-- Merging before a change that leaves the free blocks alone makes no difference to the merging
after it. -/
theorem compact_map_compact {f : Block → Block} (free : ∀ b, b.allocated = false → f b = b)
    (bs : List Block) : compact ((compact bs).map f) = compact (bs.map f) := by
  induction bs with
  | nil => rfl
  | cons b rest ih =>
      rw [List.map_cons, compact, compact, ← ih]
      cases compact rest with
      | nil => rfl
      | cons c more =>
          by_cases joins : b.Joins c
          -- Blocks that join are free, and so is what they become.
          · have merged : f { b with size := b.size + c.size } =
                { b with size := b.size + c.size } := free _ joins.1
            rw [absorb, if_pos joins, List.map_cons, compact, merged, joins.absorb_absorb,
              List.map_cons, free c joins.2.1, free b joins.1, compact]
          · rw [absorb, if_neg joins, List.map_cons, compact]

theorem freed_of_free (h : b.allocated = false) : b.freed P = b := by
  unfold freed
  split
  · rw [← h]
  · rfl

theorem map_freed_eq_self (h : ∀ b ∈ bs, P b.offset → b.allocated = false) :
    bs.map (freed P) = bs := by
  refine (List.map_congr_left fun b hb => ?_).trans (List.map_id _)
  by_cases here : P b.offset
  · exact freed_of_free (h b hb here)
  · exact if_neg here

theorem freed_freed (b : Block) : (b.freed P).freed Q = b.freed fun o => P o ∨ Q o := by
  by_cases first : P b.offset
  · have both : b.freed (fun o => P o ∨ Q o) = { b with allocated := false } :=
      if_pos (.inl first)
    have once : b.freed P = { b with allocated := false } := if_pos first
    rw [both, once]
    exact freed_of_free rfl
  · have neither : b.freed P = b := if_neg first
    rw [neither]
    simp only [freed, first, false_or]

theorem mem_map_freed (h : c.allocated = true) :
    c ∈ bs.map (freed P) ↔ c ∈ bs ∧ ¬P c.offset := by
  rw [List.mem_map]
  constructor
  · rintro ⟨b, hb, rfl⟩
    unfold freed at h ⊢
    split at h
    · cases h
    · next kept =>
        rw [if_neg kept]
        exact ⟨hb, kept⟩
  · rintro ⟨hc, kept⟩
    exact ⟨c, hc, if_neg kept⟩

theorem replaceAt_singleton (o : Nat) (bs : List Block) :
    replaceAt o (fun b => [{ b with allocated := false }]) bs = bs.map (freed (· = o)) := by
  induction bs with
  | nil => rfl
  | cons b rest ih =>
      rw [replaceAt, List.flatMap_cons, ← replaceAt, ih, List.map_cons, freed]
      split <;> rfl

theorem compact_append_of_joining (joining : run.IsChain Joins)
    (apart : ∀ b ∈ run.getLast?, ∀ c ∈ bs.head?, ¬b.Joins c) :
    compact (run ++ bs) = fuse run ++ compact bs := by
  induction run with
  | nil => rfl
  | cons b rest ih =>
      cases rest with
      | nil =>
          cases bs with
          | nil => rfl
          | cons c more =>
              have ne : ¬b.Joins c := apart b rfl c rfl
              obtain ⟨size, tail, eq⟩ := absorb_eq_cons c (compact more)
              rw [List.singleton_append, compact, compact, eq]
              exact if_neg ne
      | cons c more =>
          have joins : b.Joins c := (List.isChain_cons_cons.mp joining).1
          rw [List.cons_append, compact, ih joining.of_cons apart]
          exact if_pos joins

theorem compact_flatten {runs : List (List Block)} (joining : ∀ run ∈ runs, run.IsChain Joins)
    (apart : runs.IsChain fun run next => ∃ h h', ¬(run.getLast h).Joins (next.head h')) :
    compact runs.flatten = runs.flatMap fuse := by
  induction runs with
  | nil => rfl
  | cons run more ih =>
      have rest := ih (fun r hr => joining r (List.mem_cons_of_mem run hr)) apart.of_cons
      rw [List.flatten_cons, List.flatMap_cons, ← rest]
      apply compact_append_of_joining (joining run List.mem_cons_self)
      intro b last c first
      cases more with
      | nil => cases first
      | cons next more =>
          obtain ⟨h, h', ne⟩ := (List.isChain_cons_cons.mp apart).1
          rw [List.flatten_cons, List.head?_append_of_ne_nil _ h',
            List.head?_eq_some_head h'] at first
          rw [List.getLast?_eq_some_getLast h] at last
          cases first
          cases last
          exact ne

/-- Merging what joins makes one block of every stretch. -/
theorem compact_eq_stretches (bs : List Block) : compact bs = (stretches bs).flatMap fuse := by
  have whole : (stretches bs).flatten = bs := List.flatten_splitBy _ bs
  have merged : compact (stretches bs).flatten = (stretches bs).flatMap fuse := by
    apply compact_flatten
    · intro run hrun
      exact (List.isChain_of_mem_splitBy hrun).imp fun _ _ => of_decide_eq_true
    · apply (List.isChain_getLast_head_splitBy _ bs).imp
      rintro run next ⟨h, h', ne⟩
      exact ⟨h, h', of_decide_eq_false ne⟩
  rwa [whole] at merged

end Block

namespace Layout

open Block

variable {l l' : Layout} {P Q : Nat → Prop} [DecidablePred P] [DecidablePred Q]

/-- Free the blocks at the offsets, and merge what joins. -/
def freeAll (l : Layout) (P : Nat → Prop) [DecidablePred P] : Layout :=
  l.withBlocks (compact (l.blocks.map (freed P)))

theorem free_eq_freeAll (l : Layout) (o : Nat) : l.free o = l.freeAll (· = o) := by
  rw [free, replace, replaceAt_singleton, freeAll]

theorem freeAll_freeAll (l : Layout) :
    (l.freeAll P).freeAll Q = l.freeAll fun o => P o ∨ Q o := by
  simp only [freeAll, withBlocks]
  rw [compact_map_compact fun _ => freed_of_free, List.map_map]
  congr 3
  funext b
  exact freed_freed b

theorem freeAll_of_none (apart : Apart l.blocks) (none : ∀ o, ¬P o) : l.freeAll P = l := by
  have same : l.blocks.map (freed P) = l.blocks :=
    map_freed_eq_self fun b _ here => absurd here (none b.offset)
  rw [freeAll, same, compact_eq_self apart, withBlocks]

theorem freeAll_congr (same : ∀ o, P o ↔ Q o) : l.freeAll P = l.freeAll Q := by
  have : freed P = freed Q := by
    funext b
    simp only [freed, same]
  rw [freeAll, this, freeAll]

end Layout

end Confine
