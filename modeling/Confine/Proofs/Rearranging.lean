import Confine.Proofs.Linked

/-! # Rearranging a realized list

Marking a block, dividing it, and merging it with its successor all replace a few neighbours of the
list by others.  `Evolves.splice` says what such a replacement does to a heap that realizes a
layout, and each operation is shown to be one and to succeed.
-/

namespace Confine.Allocator

open Block

variable {a a' : Allocator} {l : Layout} {b : Block} {pre rest : List Block}

namespace Realizes

theorem zipper (h : Realizes a l) (eq : l.blocks = pre ++ b :: rest) :
    (∀ c ∈ pre, c.stop ≤ b.offset) ∧ 32 ∣ b.offset ∧ 32 ∣ b.size ∧ 32 ≤ b.size ∧
      Ascending b.stop l.brk rest := by
  obtain ⟨m, front, low, grid, size, large, back⟩ := ascending_append.mp (eq ▸ h.ascending)
  exact ⟨fun c hc => Nat.le_trans (front.mem hc).2.2.2.2 low, grid, size, large, back⟩

theorem fits_between {old : List Block} (h : Realizes a l) (eq : l.blocks = pre ++ (old ++ rest))
    (size : b.size ≤ 2 ^ 62) : (b.header (lastOffset none pre) (firstOffset none rest)).Fits := by
  have front : ∀ c ∈ pre, c ∈ l.blocks := fun c hc => by simp [eq, hc]
  have back : ∀ c ∈ rest, c ∈ l.blocks := fun c hc => by simp [eq, hc]
  exact fits_header (fun _ => h.last_lt pre front) (fun _ => h.first_lt rest back) size

end Realizes

theorem firstOffset_ne {s t o : Nat} (ascending : Ascending s t rest) (low : o < s) :
    firstOffset none rest ≠ some o := by
  intro eq
  cases rest with
  | nil => cases eq
  | cons c more =>
      cases eq
      have := ascending.1
      omega

theorem Stores.linked {cells : Nat → Prop} {s t : Nat} {before behind : Option Nat}
    (stores : Stores cells a a') (ascending : Ascending s t rest) (low : ∀ c, cells c → c < s)
    (h : Linked a.heap.headerAt before behind rest) :
    Linked a'.heap.headerAt before behind rest := by
  apply h.congr
  intro d hd
  obtain ⟨above, grid, -⟩ := ascending.mem hd
  apply stores.headerAt grid
  intro stored
  have := low _ stored
  omega

/-- The header cells of some blocks, and that of the first block behind them. -/
def Touched (bs rest : List Block) (o : Nat) : Prop :=
  (∃ b ∈ bs, b.offset = o) ∨ firstOffset none rest = some o

theorem Touched.le {b' : Block} {old new : List Block} {m t o : Nat}
    (behind : Ascending b.stop t (old ++ rest)) (tiles : Ascending b.offset m (b' :: new))
    (back : Ascending m t rest) (touched : Touched (b :: (old ++ new)) rest o) : b.offset ≤ o := by
  rcases touched with ⟨d, hd, rfl⟩ | first
  · rcases List.mem_cons.mp hd with rfl | hd
    · exact Nat.le_refl _
    · cases List.mem_append.mp hd with
      | inl hd =>
          exact Nat.le_trans (Nat.le_add_right _ _) (behind.mem (List.mem_append_left rest hd)).1
      | inr hd => exact (tiles.mem (List.mem_cons_of_mem b' hd)).1
  · by_contra high
    have := tiles.le
    exact firstOffset_ne back (by omega) first

theorem Realizes.splice {cells : Nat → Prop} {b' : Block} {new : List Block} (h : Realizes a l)
    (eq : l.blocks = pre ++ b :: rest) (offset : b'.offset = b.offset)
    (stores : Stores cells a a') (low : ∀ o, cells o → b.offset ≤ o)
    (linked : Linked a'.heap.headerAt (lastOffset none pre) none (b' :: new))
    (ascending : Ascending b.offset l.brk (b' :: new)) (head : a'.head = a.head)
    (tail : a'.tail = lastOffset none (b' :: new)) :
    Realizes a' (l.withBlocks (pre ++ b' :: new)) where
  placed := stores.placed h.placed
  base := stores.base.trans h.base
  capacity := stores.capacity.trans h.capacity
  brk := stores.brk.trans h.brk
  ascending := by
    obtain ⟨s, front, start, -⟩ := ascending_append.mp (eq ▸ h.ascending)
    exact ascending_append.mpr ⟨s, front, ascending.mono start (Nat.le_refl _)⟩
  linked := by
    have kept : Linked a'.heap.headerAt none (firstOffset none (b :: rest)) pre := by
      apply (linked_append.mp (eq ▸ h.linked)).1.congr
      intro d hd
      have inList : d ∈ l.blocks := by simp [eq, hd]
      apply stores.headerAt (h.cell_of_mem inList).1
      intro stored
      have := low _ stored
      have := (h.zipper eq).1 d hd
      have := (h.ascending.mem inList).2.2.2.1
      simp only [stop] at *
      omega
    refine linked_append.mpr ⟨?_, linked⟩
    simpa only [firstOffset, offset] using kept
  head := by
    rw [head, h.head, eq, firstOffset_append, firstOffset, ← offset]
    exact (firstOffset_append none pre (b' :: new)).symm
  tail := by
    rw [tail]
    exact (lastOffset_append none pre (b' :: new)).symm
  growths := stores.growths.trans h.growths

namespace Evolves

/-- A change of header cells, each of which is listed before or after. -/
theorem of_stores {window cells : Nat → Prop} {l' : Layout} (s : Stores cells a a')
    (realizes : Realizes a' l')
    (touched : ∀ c, cells c → (∃ b ∈ l.blocks, b.offset = c) ∨ ∃ b ∈ l'.blocks, b.offset = c)
    (listed : ∀ b ∈ l'.blocks, (∃ c ∈ l.blocks, c.offset = b.offset) ∨ window b.offset)
    (dropped : ∀ b ∈ l.blocks, (∀ c ∈ l'.blocks, c.offset ≠ b.offset) →
      (a'.heap.headerAt b.offset).Calm) : Evolves window l l' a a' where
  realizes := realizes
  base := s.base
  capacity := s.capacity
  bytes i unlisted outside := by
    apply s.bytes i
    intro hc
    rcases touched _ hc with ⟨b, hb, eq⟩ | ⟨b, hb, eq⟩
    · exact unlisted b hb eq
    · rcases listed b hb with ⟨c, hc, same⟩ | inside
      · exact unlisted c hc (same.trans eq)
      · exact outside (eq ▸ inside)
  listed := listed
  quiet was c grid unlisted := by
    by_cases old : ∃ b ∈ l.blocks, b.offset = c
    · obtain ⟨b, hb, rfl⟩ := old
      exact dropped b hb unlisted
    · have untouched : ¬cells c := by
        intro hc
        rcases touched c hc with before | ⟨b, hb, eq⟩
        · exact old before
        · exact unlisted b hb eq
      rw [s.headerAt grid untouched]
      exact was c grid fun b hb eq => old ⟨b, hb, eq⟩

/-- Some blocks of the list are replaced by others that tile the same space and start with a block
at the same offset.  Only the headers of both and of the block behind them are stored, and the
cells that leave the list calm down. -/
theorem splice {window : Nat → Prop} {b' : Block} {old new : List Block} {m : Nat}
    (h : Realizes a l) (eq : l.blocks = pre ++ b :: (old ++ rest)) (offset : b'.offset = b.offset)
    (stores : Stores (Touched (b :: (old ++ new)) rest) a a')
    (linked : Linked a'.heap.headerAt (lastOffset none pre) none (b' :: (new ++ rest)))
    (tiles : Ascending b.offset m (b' :: new)) (back : Ascending m l.brk rest)
    (head : a'.head = a.head) (tail : a'.tail = lastOffset none (b' :: (new ++ rest)))
    (inside : ∀ d ∈ new, window d.offset)
    (dropped : ∀ d ∈ old, (a'.heap.headerAt d.offset).Calm) :
    Evolves window l (l.withBlocks (pre ++ b' :: (new ++ rest))) a a' := by
  obtain ⟨-, -, -, -, behind⟩ := h.zipper eq
  have realizes : Realizes a' (l.withBlocks (pre ++ b' :: (new ++ rest))) :=
    h.splice eq offset stores (fun _ => Touched.le behind tiles back) linked
      (ascending_append.mpr ⟨m, tiles, back⟩) head tail
  apply of_stores stores realizes
  · rintro o (⟨d, hd, rfl⟩ | first)
    · rcases List.mem_cons.mp hd with rfl | hd
      · exact .inl ⟨d, by simp [eq], rfl⟩
      · cases List.mem_append.mp hd with
        | inl hd =>
            exact .inl ⟨d, by simp [eq, hd], rfl⟩
        | inr hd =>
            exact .inr ⟨d, by simp [Layout.withBlocks, hd], rfl⟩
    · cases rest with
      | nil => cases first
      | cons c more =>
          cases first
          exact .inl ⟨c, by simp [eq], rfl⟩
  · intro d hd
    simp only [Layout.withBlocks, List.mem_append, List.mem_cons] at hd
    rcases hd with hd | rfl | hd | hd
    · exact .inl ⟨d, by simp [eq, hd], rfl⟩
    · exact .inl ⟨b, by simp [eq], offset.symm⟩
    · exact .inr (inside d hd)
    · exact .inl ⟨d, by simp [eq, hd], rfl⟩
  · intro d hd unlisted
    rw [eq] at hd
    simp only [Layout.withBlocks, List.mem_append, List.mem_cons] at hd unlisted
    rcases hd with hd | rfl | hd | hd
    · exact absurd rfl (unlisted d (.inl hd))
    · exact absurd offset (unlisted b' (.inr (.inl rfl)))
    · exact dropped d hd
    · exact absurd rfl (unlisted d (.inr (.inr (.inr hd))))

end Evolves

theorem linkBack_run {s e : Nat} {before : Option Nat} (placed : a.heap.Placed)
    (ascending : Ascending s a.heap.brk rest) (linked : Linked a.heap.headerAt before none rest)
    (tail : a.tail = lastOffset before rest) (small : e < 2 ^ 62) :
    ∃ a', linkBack e (firstOffset none rest) a = (.ok (), a') ∧
      Stores (fun c => firstOffset none rest = some c) a a' ∧
      Linked a'.heap.headerAt (some e) none rest ∧ a'.head = a.head ∧
      a'.tail = lastOffset (some e) rest := by
  cases rest with
  | nil => exact ⟨{ a with tail := some e }, rfl, Stores.tail a _ _, trivial, rfl, rfl⟩
  | cons c more =>
      obtain ⟨-, grid, -, large, back⟩ := ascending
      have := back.le
      have bound : a.heap.brk ≤ 2 ^ 62 := Nat.le_trans placed.brk_le placed.capacity_le
      simp only [stop] at this back
      have below : c.offset + 32 ≤ a.heap.brk := by omega
      have fits : (c.header (some e) (firstOffset none more)).Fits := by
        refine fits_header (fun p eq => by cases eq; exact small) (fun n eq => ?_) (by omega)
        cases more with
        | nil => cases eq
        | cons d more =>
            cases eq
            have := (back.mem List.mem_cons_self).2.2.2
            simp only [stop] at this
            omega
      have changed : { a.heap.headerAt c.offset with prev := some e } =
          c.header (some e) (firstOffset none more) := by
        rw [linked.1]
        rfl
      have stores := Stores.put a (c.header (some e) (firstOffset none more)) grid
      refine ⟨a.put c.offset (c.header (some e) (firstOffset none more)), ?_,
        stores.mono fun d eq => by rw [eq]; rfl, ?_, rfl, tail⟩
      · rw [← changed]
        exact update_run placed _ grid below
      · refine linked.relink ?_ fun d hd => stores.headerAt (back.mem hd).2.1 ?_
        · rw [changed, headerAt_put_self placed fits below]
        · have := (back.mem hd).1
          omega

/-- The header of a block that joins its successor swallows that of the successor. -/
theorem merge_run {window : Nat → Prop} {c : Block} {more : List Block} (h : Realizes a l)
    (eq : l.blocks = pre ++ b :: c :: more) (joins : b.Joins c) :
    ∃ a', (do
        linkBack b.offset (firstOffset none more)
        let current ← header b.offset
        let size ← orPanic (Word.add current.size c.size)
        storeHeader b.offset { current with size, next := firstOffset none more }) a =
          (.ok (), a') ∧
      Evolves window l (l.withBlocks (pre ++ { b with size := b.size + c.size } :: more)) a a' := by
  obtain ⟨-, grid, gridSize, large, low, gridC, gridSizeC, largeC, back⟩ := h.zipper eq
  obtain ⟨-, cellB, cellC, linkedMore⟩ := linked_append.mp (eq ▸ h.linked)
  have below := (h.cell_of_mem (show b ∈ l.blocks by simp [eq])).2
  have bound := h.brk_le
  have brk := h.brk
  have room := back.le
  simp only [stop] at low room
  have lowC : c.offset < c.stop := by simp only [stop]; omega
  -- the rest of the list is linked back to `b` instead of `c`
  obtain ⟨a₁, run₁, stores₁, linked₁, head₁, tail₁⟩ := linkBack_run (e := b.offset) h.placed
    (brk ▸ back) linkedMore (by rw [h.tail, eq, lastOffset_append]; rfl) (by omega)
  have placed₁ := stores₁.placed h.placed
  have below₁ : b.offset + 32 ≤ a₁.heap.brk := stores₁.brk ▸ below
  have keptB : a₁.heap.headerAt b.offset = b.header (lastOffset none pre) (some c.offset) :=
    (stores₁.headerAt grid (firstOffset_ne back (by omega))).trans cellB
  have sum : Word.add b.size c.size = .ok (b.size + c.size) :=
    Word.add_eq_ok_iff.mpr ⟨rfl, by simp only [Word.limit]; omega⟩
  rw [bind_ok run₁, bind_ok (header_run placed₁ grid below₁), keptB, header_size, sum,
    orPanic_ok_bind]
  -- then the header of `b` takes the place of both
  let merged : Block := { b with size := b.size + c.size }
  let hd := merged.header (lastOffset none pre) (firstOffset none more)
  have fits : hd.Fits := h.fits_between (show l.blocks = pre ++ ([b, c] ++ more) from eq)
    (show b.size + c.size ≤ 2 ^ 62 by omega)
  have stores₂ := Stores.put a₁ hd grid
  have stores : Stores (Touched (b :: ([c] ++ [])) more) a (a₁.put b.offset hd) :=
    (stores₁.mono fun _ => .inr).trans (stores₂.mono fun _ same => .inl ⟨b, by simp, same.symm⟩)
  have linked : Linked (a₁.put b.offset hd).heap.headerAt (lastOffset none pre) none
      (merged :: more) :=
    ⟨headerAt_put_self placed₁ fits below₁, stores₂.linked back (by omega) linked₁⟩
  have tiles : Ascending b.offset c.stop [merged] := by
    have touch := joins.2.2
    simp only [Ascending, stop, merged]
    omega
  have dropped : ∀ d ∈ [c], ((a₁.put b.offset hd).heap.headerAt d.offset).Calm := by
    intro d hd
    rw [List.mem_singleton] at hd
    subst hd
    rw [stores₂.headerAt gridC (by omega), stores₁.headerAt gridC (firstOffset_ne back lowC), cellC]
    exact ⟨joins.2.1, b.offset, rfl, by omega⟩
  exact ⟨a₁.put b.offset hd, storeHeader_run placed₁ hd grid below₁,
    Evolves.splice h eq (show merged.offset = b.offset from rfl) stores linked tiles back head₁
      tail₁ (by simp) dropped⟩

/-- A free block absorbs its successor if that is free and touches it. -/
theorem coalesce_run (window : Nat → Prop) (h : Realizes a l) (eq : l.blocks = pre ++ b :: rest) :
    ∃ a', coalesce b.offset a = (.ok (), a') ∧
      Evolves window l (l.withBlocks (pre ++ b.absorb rest)) a a' := by
  have hb : b ∈ l.blocks := by simp [eq]
  have same : l = l.withBlocks (pre ++ b :: rest) := by rw [← eq]; rfl
  rw [coalesce, bind_ok (h.header_of_mem hb)]
  cases rest with
  | nil =>
      rw [h.cell_eq eq]
      exact ⟨a, rfl, by simpa only [absorb, ← same] using Evolves.refl window h⟩
  | cons c more =>
      have hc : c ∈ l.blocks := by simp [eq]
      have cellC := h.cell_eq (show l.blocks = pre ++ [b] ++ c :: more by simp [eq])
      have cellB : a.heap.headerAt b.offset = b.header (lastOffset none pre) (some c.offset) :=
        h.cell_eq eq
      rw [cellB, header_next]
      dsimp only
      rw [bind_ok (h.header_of_mem hc), cellC, header_allocated, header_allocated, header_next,
        header_size, header_size]
      by_cases busy : b.allocated || c.allocated
      · have kept : b.absorb (c :: more) = b :: c :: more :=
          if_neg fun joins => by simp [joins.1, joins.2.1] at busy
        refine ⟨a, by rw [if_pos busy]; rfl, ?_⟩
        simpa only [kept, ← same] using Evolves.refl window h
      · rw [if_neg busy]
        simp only [Bool.or_eq_true, not_or, Bool.not_eq_true] at busy
        obtain ⟨front, grid, gridSize, large, low, gridC, gridSizeC, largeC, back⟩ := h.zipper eq
        have bound := h.brk_le
        have brk := h.brk
        have := back.le
        simp only [stop] at front low this
        have sum : Word.add b.offset b.size = .ok (b.offset + b.size) :=
          Word.add_eq_ok_iff.mpr ⟨rfl, by simp only [Word.limit]; omega⟩
        rw [sum, orPanic_ok_bind]
        by_cases touch : b.offset + b.size ≠ c.offset
        · have kept : b.absorb (c :: more) = b :: c :: more :=
            if_neg fun joins => touch joins.2.2
          refine ⟨a, by rw [if_pos touch]; rfl, ?_⟩
          simpa only [kept, ← same] using Evolves.refl window h
        · rw [if_neg touch]
          have joins : b.Joins c := ⟨busy.1, busy.2, not_not.mp touch⟩
          rw [absorb, if_pos joins]
          exact merge_run h eq joins

/-- A change of the header of a block that moves nothing. -/
theorem mark_run (window : Nat → Prop) (x : Block) (change : Header → Header) (h : Realizes a l)
    (eq : l.blocks = pre ++ b :: rest) (offset : x.offset = b.offset) (size : x.size = b.size)
    (changed : ∀ prev next, change (b.header prev next) = x.header prev next) :
    ∃ a', update b.offset change a = (.ok (), a') ∧
      Evolves window l (l.withBlocks (pre ++ x :: rest)) a a' := by
  obtain ⟨grid, below⟩ := h.cell_of_mem (show b ∈ l.blocks by simp [eq])
  obtain ⟨-, -, gridSize, large, back⟩ := h.zipper eq
  obtain ⟨-, -, linkedRest⟩ := linked_append.mp (eq ▸ h.linked)
  have room := back.le
  have bound := h.brk_le
  have low : b.offset < b.stop := by simp only [stop]; omega
  simp only [stop] at room
  let hd := x.header (lastOffset none pre) (firstOffset none rest)
  have fits : hd.Fits := h.fits_between (show l.blocks = pre ++ ([b] ++ rest) from eq) (by omega)
  have stored := Stores.put a hd grid
  have stores : Stores (Touched (b :: ([] ++ [])) rest) a (a.put b.offset hd) :=
    stored.mono fun _ same => .inl ⟨b, by simp, same.symm⟩
  have linked :
      Linked (a.put b.offset hd).heap.headerAt (lastOffset none pre) none (x :: rest) := by
    rw [Linked, offset]
    exact ⟨headerAt_put_self h.placed fits below, stored.linked back (by omega) linkedRest⟩
  have tiles : Ascending b.offset b.stop [x] := by
    simp only [Ascending, stop, offset, size]
    omega
  have tail : a.tail = lastOffset none (x :: rest) := by
    rw [h.tail, eq, lastOffset_append, lastOffset, lastOffset, offset]
  refine ⟨a.put b.offset hd, ?_,
    Evolves.splice h eq offset stores linked tiles back rfl tail (by simp) (by simp)⟩
  rw [update_run h.placed change grid below, h.cell_eq eq, changed]

/-- A block divided in two: a header for the second part, which the successor is linked back to, and
a smaller first part. -/
theorem divide_run (x y : Block) (change : Header → Header) (h : Realizes a l)
    (eq : l.blocks = pre ++ b :: rest) (offset : x.offset = b.offset) (behind : y.offset = x.stop)
    (sizes : x.size + y.size = b.size) (gridX : 32 ∣ x.size) (largeX : 32 ≤ x.size)
    (largeY : 32 ≤ y.size)
    (changed : ∀ prev next, change (b.header prev next) = x.header prev (some y.offset)) :
    ∃ a', (∀ {β : Type} (k : PUnit → Action β), (do
        storeHeader y.offset (y.header (some b.offset) (firstOffset none rest))
        linkBack y.offset (firstOffset none rest)
        update b.offset change >>= k) a = k ⟨⟩ a') ∧
      Evolves (fun o => b.offset ≤ o ∧ o < b.stop) l
        (l.withBlocks (pre ++ x :: y :: rest)) a a' := by
  obtain ⟨grid, below⟩ := h.cell_of_mem (show b ∈ l.blocks by simp [eq])
  obtain ⟨-, -, gridSize, large, back⟩ := h.zipper eq
  obtain ⟨-, cellB, linkedRest⟩ := linked_append.mp (eq ▸ h.linked)
  have room := back.le
  have bound := h.brk_le
  have brk := h.brk
  have whole : b.stop = b.offset + b.size := rfl
  simp only [stop] at room behind
  have gridY : 32 ∣ y.offset := by omega
  have belowY : y.offset + 32 ≤ a.heap.brk := by omega
  -- the header of the second part
  let hy := y.header (some b.offset) (firstOffset none rest)
  have fitsY : hy.Fits := fits_header (fun p hp => by cases hp; omega)
    (fun n hn => h.first_lt rest (fun d hd => by simp [eq, hd]) hn) (by omega)
  have stores₁ := Stores.put a hy gridY
  have placed₁ := stores₁.placed h.placed
  -- the rest of the list is linked back to it
  obtain ⟨a₂, run₂, stores₂, linked₂, head₂, tail₂⟩ := linkBack_run (a := a.put y.offset hy)
    (e := y.offset) placed₁ (stores₁.brk ▸ brk ▸ back)
    (stores₁.linked back (by omega) linkedRest)
    (by rw [show (a.put y.offset hy).tail = a.tail from rfl, h.tail, eq, lastOffset_append]; rfl)
    (by omega)
  have placed₂ := stores₂.placed placed₁
  have brk₂ : a₂.heap.brk = a.heap.brk := stores₂.brk.trans stores₁.brk
  -- the first part shrinks
  let hx := x.header (lastOffset none pre) (some y.offset)
  have fitsX : hx.Fits := fits_header
    (fun p hp => h.last_lt pre (fun d hd => by simp [eq, hd]) hp)
    (fun n hn => by cases hn; omega) (by omega)
  have keptB : a₂.heap.headerAt b.offset = b.header (lastOffset none pre) (firstOffset none rest) :=
    ((stores₂.headerAt grid (firstOffset_ne back (by omega))).trans
      (stores₁.headerAt grid (by omega))).trans cellB
  have stores₃ := Stores.put a₂ hx grid
  have stores : Stores (Touched (b :: ([] ++ [y])) rest) a (a₂.put b.offset hx) :=
    ((stores₁.mono fun _ same => .inl ⟨y, by simp, same.symm⟩).trans
      (stores₂.mono fun _ => .inr)).trans (stores₃.mono fun _ same => .inl ⟨b, by simp, same.symm⟩)
  have linked : Linked (a₂.put b.offset hx).heap.headerAt (lastOffset none pre) none
      (x :: y :: rest) := by
    rw [Linked, Linked, offset]
    refine ⟨headerAt_put_self placed₂ fitsX (brk₂ ▸ below), ?_,
      stores₃.linked back (by omega) linked₂⟩
    rw [stores₃.headerAt gridY (by omega), stores₂.headerAt gridY (firstOffset_ne back (by omega))]
    exact headerAt_put_self h.placed fitsY belowY
  have tiles : Ascending b.offset b.stop [x, y] := by
    simp only [Ascending, stop]
    omega
  refine ⟨a₂.put b.offset hx, ?_,
    Evolves.splice h eq offset stores linked tiles back head₂ tail₂ ?_ (by simp)⟩
  · intro β k
    rw [bind_ok (storeHeader_run h.placed hy gridY belowY), bind_ok run₂,
      bind_ok (update_run placed₂ change grid (brk₂ ▸ below)), keptB, changed]
  · intro d hd
    rw [List.mem_singleton] at hd
    subst hd
    omega

end Confine.Allocator
