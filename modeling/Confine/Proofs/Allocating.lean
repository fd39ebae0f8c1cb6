import Confine.Proofs.Layout.Accounting
import Confine.Proofs.Payload
import Confine.Proofs.Taking

/-! # Allocating

Each way of obtaining memory, run on a heap that realizes a layout, does what the layout does or
reports that memory is exhausted and changes nothing.  A block whose payload has to be aligned is
first taken large enough and then carved.
-/

namespace Confine.Allocator

open Block

variable {a a' : Allocator} {l l' : Layout} {b : Block} {pre rest : List Block}
  {o size alignment gap required : Nat}

theorem payload_run (placed : a.heap.Placed) (below : o + 32 ≤ a.heap.capacity) :
    payload o a = (.ok (a.heap.base + (o + 32)), a) := by
  have small := placed.capacity_le
  have sum : Word.add o Header.bytes = .ok (o + 32) :=
    Word.add_eq_ok_iff.mpr ⟨rfl, by simp only [Word.limit]; omega⟩
  have address : a.heap.address (o + 32) = .ok (a.heap.base + (o + 32)) := if_pos below
  rw [payload, sum, orPanic_ok_bind, get_bind, address, run_orPanic_ok]

theorem Evolves.payload_run {window : Nat → Prop} (h : Evolves window l l' a a')
    (hb : b ∈ l'.blocks) : payload b.offset a' = (.ok (a.heap.base + (b.offset + 32)), a') := by
  have := (h.realizes.cell_of_mem hb).2
  have := h.realizes.placed.brk_le
  rw [Allocator.payload_run h.realizes.placed (by omega), h.base]

/-- An action does what an attempt on the layout does: it returns the payload of the block that the
attempt takes, or reports that memory is exhausted and changes nothing. -/
def Follows (serving : Action Nat) (a : Allocator) (l : Layout) (attempt : Option (Nat × Layout)) :
    Prop :=
  match attempt with
  | none => serving a = (.error (.error .outOfMemory), a)
  | some (o, l') => ∃ a', serving a = (.ok (a.heap.base + (o + 32)), a') ∧
      Evolves l.Vacant l l' a a'

theorem allocate_run (h : Realizes a l) (apart : Apart l.blocks) (size : Nat) :
    Follows (allocate size) a l (l.allocate size) := by
  unfold Follows
  rw [allocate]
  cases sized : requiredSize size with
  | none =>
      simp only [Layout.allocate, sized]
      exact bind_error run_orExhausted_none
  | some required =>
      obtain ⟨grid, large, -⟩ := Layout.requiredSize_eq_some sized
      have taken := takeBlock_run h apart grid (show 32 ≤ required by omega)
      have same : l.allocate size = l.take required := by
        rw [Layout.allocate, sized]
        rfl
      rw [orExhausted_some_bind, same]
      cases take : l.take required with
      | none =>
          rw [take] at taken
          exact bind_error taken
      | some result =>
          obtain ⟨o, l'⟩ := result
          rw [take] at taken
          obtain ⟨a', run, evolves⟩ := taken
          obtain ⟨n, rfl, -, takes, -⟩ := Layout.take_eq_some h.ascending grid (by omega) take
          have hn : n ∈ l'.blocks := (takes.mem n takes.allocated).mpr (.inr rfl)
          refine ⟨a', (bind_ok run).trans ?_, evolves⟩
          exact evolves.payload_run hn

theorem Realizes.payload_le (h : Realizes a l) (hb : b ∈ l.blocks) (room : size + 32 ≤ b.size) :
    b.offset + 32 + size ≤ 2 ^ a.heap.memory.height := by
  have := h.placed.spans
  have := h.placed.brk_le
  have := h.brk
  have := (h.ascending.mem hb).2.2.2.2
  simp only [stop] at this
  omega

theorem Realizes.get_zero (h : Realizes a l) (hb : b ∈ l.blocks) (room : size + 32 ≤ b.size)
    (i : Nat) : (a.heap.memory.fill (b.offset + 32) size 0).get i =
      if b.offset + 32 ≤ i ∧ i < b.offset + 32 + size then 0 else a.heap.memory.get i :=
  Memory.get_fill_of_le _ _ (h.payload_le hb room) i

theorem Evolves.zero (h : Realizes a l) (hb : b ∈ l.blocks) (room : size + 32 ≤ b.size) :
    Evolves b.Covers l l a
      { a with heap.memory := a.heap.memory.fill (b.offset + 32) size 0 } := by
  apply Evolves.write h hb
  · rfl
  · intro i outside
    simp only [stop] at outside
    rw [h.get_zero hb room, if_neg (by omega)]
  · intro quiet
    apply quiet.of_bytes
    intro c grid unlisted k _
    simp only [h.get_zero hb room]
    split
    · exact .inl rfl
    · exact .inr ⟨c, grid, unlisted, rfl⟩

theorem zeroAllocate_run (h : Realizes a l) (apart : Apart l.blocks) (count size : Nat) :
    Follows (zeroAllocate count size) a l (l.allocate (Word.mulWrapping count size)) := by
  have allocated := allocate_run h apart (Word.mulWrapping count size)
  unfold Follows at *
  rw [zeroAllocate]
  cases served : l.allocate (Word.mulWrapping count size) with
  | none =>
      rw [served] at allocated
      exact bind_error allocated
  | some result =>
      obtain ⟨o, l'⟩ := result
      rw [served] at allocated
      obtain ⟨a₁, run, evolves⟩ := allocated
      obtain ⟨n, rfl, room, takes, -⟩ := Layout.allocate_eq_some h.ascending served
      have hn : n ∈ l'.blocks := (takes.mem n takes.allocated).mpr (.inr rfl)
      have start : a.heap.base + (n.offset + 32) - a₁.heap.base = n.offset + 32 := by
        rw [evolves.base, Nat.add_sub_cancel_left]
      refine ⟨_, bind_ok run, evolves.trans ?_⟩
      simp only [start]
      exact (Evolves.zero evolves.realizes hn room).mono fun i hi => takes.vacant i hi

/-- The front of an allocated block is given back.  What lies before it stays as it is while the
rest of the list is changed further, as long as that starts with an allocated block. -/
theorem carve_run (h : Realizes a l) (eq : l.blocks = pre ++ b :: rest)
    (apart : Apart l.blocks) (grid : 32 ∣ gap) (large : 32 ≤ gap) (room : gap + 32 ≤ b.size) :
    ∃ a' front, carve b.offset gap a = (.ok (b.offset + gap), a') ∧
      Evolves b.Covers l
        (l.withBlocks (front ++ ⟨b.offset + gap, b.size - gap, true⟩ :: rest)) a a' ∧
      ∀ (c : Block) (cs : List Block), c.allocated = true →
        compact (pre ++ ⟨b.offset, gap, false⟩ :: c :: cs) = front ++ compact (c :: cs) := by
  have hb : b ∈ l.blocks := by simp [eq]
  have bound := h.brk_le
  have below := (h.ascending.mem hb).2.2.2.2
  simp only [stop] at below
  let x : Block := ⟨b.offset, gap, false⟩
  let y : Block := ⟨b.offset + gap, b.size - gap, true⟩
  have aligned : Word.add b.offset gap = .ok (b.offset + gap) :=
    Word.add_eq_ok_iff.mpr ⟨rfl, by simp only [Word.limit]; omega⟩
  have left : Word.sub b.size gap = .ok (b.size - gap) :=
    Word.sub_eq_ok_iff.mpr ⟨by omega, rfl⟩
  obtain ⟨a₁, run₁, evolves₁⟩ := divide_run x y
    ({ · with size := gap, next := some (b.offset + gap), allocated := false }) h eq rfl
    rfl (by simp only [x, y]; omega) grid large (by simp only [y]; omega) fun _ _ => rfl
  rw [carve, bind_ok (h.header_of_mem hb), h.cell_eq eq, aligned, orPanic_ok_bind, header_size,
    left, orPanic_ok_bind]
  rcases List.eq_nil_or_concat' pre with rfl | ⟨front, p, rfl⟩
  · refine ⟨a₁, [x], ?_, evolves₁, fun c cs hc => ?_⟩
    · exact run₁ fun _ => pure (b.offset + gap)
    · rw [List.nil_append, compact, compact, absorb_of_allocated hc, absorb_allocated_cons hc]
      rfl
  · -- the block before it absorbs the front if it can
    obtain ⟨a₂, run₂, evolves₂⟩ := coalesce_run b.Covers evolves₁.realizes
      (show front ++ [p] ++ x :: y :: rest = front ++ p :: x :: y :: rest by simp)
    obtain ⟨merged, first⟩ := absorb_front p x
    refine ⟨a₂, front ++ merged, ?_, ?_, fun c cs hc => ?_⟩
    · have last : lastOffset none (front ++ [p]) = some p.offset :=
        lastOffset_append none front [p]
      rw [header_prev, last]
      exact (run₁ fun _ => coalesce p.offset >>= fun _ => pure (b.offset + gap)).trans
        (bind_ok run₂)
    · rw [first, ← List.append_assoc] at evolves₂
      exact evolves₁.trans evolves₂
    · have front' : Apart (front ++ [p]) := (eq ▸ apart).left_of_append
      rw [List.append_assoc, List.singleton_append, compact_append front', compact, compact,
        absorb_of_allocated hc, absorb_allocated_cons hc, first, List.append_assoc]

theorem trim_run (h : Realizes a l) (eq : l.blocks = pre ++ b :: rest)
    (allocated : b.allocated = true) (apart : Apart l.blocks) (grid : 32 ∣ required)
    (large : 32 ≤ required) (fits : required ≤ b.size) :
    ∃ a', split b.offset required a = (.ok (), a') ∧
      Evolves b.Covers l (l.replace b.offset (·.pieces 0 required)) a a' := by
  obtain ⟨a', run, evolves⟩ := split_run h eq grid large fits
  have whole := eq ▸ h.ascending
  have same : { b with allocated := true } = b := by rw [← allocated]
  rw [Layout.replace, eq, replaceAt_append whole, List.append_assoc,
    compact_pieces (eq ▸ apart).left_of_append (eq ▸ apart).right_of_append.of_cons, same]
  exact ⟨a', run, evolves⟩

/-- The distance of a payload to the next multiple of an alignment that the block has room for. -/
theorem Realizes.distance (h : Realizes a l) (hb : b ∈ l.blocks) (wide : 32 ∣ alignment)
    (positive : 0 < alignment) (room : alignment ≤ b.size) :
    ∃ gap, Word.roundUp (a.heap.base + (b.offset + 32)) alignment =
        a.heap.base + (b.offset + 32) + gap ∧
      Word.nextMultiple (a.heap.base + (b.offset + 32)) alignment =
        .ok (a.heap.base + (b.offset + 32) + gap) ∧ 32 ∣ gap ∧ gap < alignment := by
  obtain ⟨gap, rounded, small, aligned⟩ :=
    Layout.gap_lt (a.heap.base + (b.offset + 32)) positive
  obtain ⟨-, grid, -, -, below⟩ := h.ascending.mem hb
  have := h.brk_le
  have := h.placed.base_le
  have := h.placed.base_dvd
  simp only [stop] at below
  refine ⟨gap, rounded, ?_, ?_, small⟩
  · rw [Word.nextMultiple, Word.roundUp?, rounded, if_pos (by simp only [Word.limit]; omega)]
  · exact (Nat.dvd_add_right (by omega)).mp (Nat.dvd_trans wide aligned)

/-- An allocated block is carved and cut down so that its payload starts behind a gap. -/
theorem align_run (h : Realizes a l) (hb : b ∈ l.blocks)
    (allocated : b.allocated = true) (apart : Apart l.blocks) (gridGap : 32 ∣ gap)
    (grid : 32 ∣ required) (large : 32 ≤ required) (room : gap + required ≤ b.size)
    (rounded : Word.nextMultiple (a.heap.base + (b.offset + 32)) alignment =
      .ok (a.heap.base + (b.offset + 32) + gap)) :
    ∃ a', (do
        let address ← payload b.offset
        let gap := (← orPanic (Word.nextMultiple address alignment)) - address
        if gap = 0 then
          split b.offset required
          return address
        if gap % Header.bytes ≠ 0 then throw (.panic .gapOffGrid)
        let aligned ← carve b.offset gap
        split aligned required
        payload aligned : Action Nat) a = (.ok (a.heap.base + (b.offset + gap + 32)), a') ∧
      Evolves b.Covers l (l.replace b.offset (·.pieces gap required)) a a' := by
  obtain ⟨pre, rest, eq⟩ := List.append_of_mem hb
  rw [bind_ok ((Evolves.refl b.Covers h).payload_run hb), rounded, orPanic_ok_bind]
  simp only [Nat.add_sub_cancel_left]
  by_cases flush : gap = 0
  · subst flush
    obtain ⟨a', run, evolves⟩ := trim_run h eq allocated apart grid large (by omega)
    rw [if_pos rfl]
    exact ⟨a', bind_ok run, evolves⟩
  · rw [if_neg flush, if_neg (by simp only [Header.bytes]; omega)]
    obtain ⟨a₁, front, run₁, evolves₁, merge⟩ := carve_run h eq apart gridGap (by omega) (by omega)
    let y : Block := ⟨b.offset + gap, b.size - gap, true⟩
    obtain ⟨a₂, run₂, evolves₂⟩ := split_run (b := y) evolves₁.realizes rfl
      grid large (by simp only [y]; omega)
    obtain ⟨size, tail, first⟩ :
        ∃ size tail, y.cut required rest = ⟨y.offset, size, true⟩ :: tail := by
      simp only [cut]
      split <;> exact ⟨_, _, rfl⟩
    obtain ⟨size', tail', first'⟩ :
        ∃ size tail, y.pieces 0 required ++ rest = ⟨y.offset, size, true⟩ :: tail := by
      simp only [pieces, if_true, List.nil_append]
      split <;> exact ⟨_, _, rfl⟩
    have inBlock : ∀ i, y.Covers i → b.Covers i := by
      intro i hi
      simp only [Covers, stop, y] at hi ⊢
      omega
    have both := evolves₁.trans (evolves₂.mono inBlock)
    refine ⟨a₂, (bind_ok run₁).trans ((bind_ok run₂).trans ?_), ?_⟩
    · exact both.payload_run (b := ⟨y.offset, size, true⟩) (by
        simp only [Layout.withBlocks, first, List.mem_append, List.mem_cons, true_or, or_true])
    · have merged : compact (y.pieces 0 required ++ rest) = y.cut required rest :=
        compact_pieces List.isChain_nil (eq ▸ apart).right_of_append.of_cons
      rw [Layout.replace, eq, replaceAt_append (eq ▸ h.ascending), pieces_gap flush,
        List.append_assoc, List.cons_append, first', merge _ _ rfl, ← first', merged]
      exact both

theorem dvd_of_isPowerOfTwo (power : Word.isPowerOfTwo alignment = true) (wide : 32 < alignment) :
    32 ∣ alignment := by
  obtain ⟨k, rfl⟩ := Word.isPowerOfTwo_iff.mp power
  have large : 2 ^ 5 < 2 ^ k := wide
  exact Nat.pow_dvd_pow 2 (Nat.le_of_lt ((Nat.pow_lt_pow_iff_right (by decide)).mp large))

theorem allocateAligned_narrow (power : Word.isPowerOfTwo alignment = true)
    (narrow : alignment ≤ 32) (size : Nat) (a : Allocator) :
    allocateAligned alignment size a = allocate size a := by
  simp only [allocateAligned, power, Bool.not_true, Bool.false_eq_true, if_false]
  exact congrFun (if_pos narrow) a

theorem allocateAligned_run (h : Realizes a l) (apart : Apart l.blocks)
    (power : Word.isPowerOfTwo alignment = true) (wide : 32 < alignment) (size : Nat) :
    Follows (allocateAligned alignment size) a l (l.allocateAligned alignment size) := by
  unfold Follows
  have narrow : ¬alignment ≤ Header.bytes := by
    simp only [Header.bytes]
    omega
  simp only [allocateAligned, power, Bool.not_true, Bool.false_eq_true, if_false, if_neg narrow,
    Layout.allocateAligned]
  cases sized : requiredSize size with
  | none => exact bind_error run_orExhausted_none
  | some required =>
      rw [orExhausted_some_bind]
      cases padding : Word.add? size alignment >>= requiredSize with
      | none => exact bind_error run_orExhausted_none
      | some padded =>
          have grid := dvd_of_isPowerOfTwo power wide
          have room := Layout.padded_eq grid sized padding
          obtain ⟨gridR, large, -⟩ := Layout.requiredSize_eq_some sized
          have taken := takeBlock_run h apart (show 32 ∣ padded by omega) (by omega)
          rw [orExhausted_some_bind]
          cases take : l.take padded with
          | none =>
              rw [take] at taken
              simp only [Option.bind_eq_bind, Option.bind_some, Option.bind_none, take]
              exact bind_error taken
          | some result =>
              obtain ⟨o, l₁⟩ := result
              rw [take] at taken
              obtain ⟨a₁, run₁, evolves₁⟩ := taken
              obtain ⟨n, rfl, enough, takes, -⟩ :=
                Layout.take_eq_some h.ascending (by omega) (by omega) take
              have hn : n ∈ l₁.blocks := (takes.mem n takes.allocated).mpr (.inr rfl)
              obtain ⟨gap, rounded, multiple, gridGap, small⟩ :=
                evolves₁.realizes.distance hn grid (by omega) (by omega)
              have base : l.base = a₁.heap.base := h.base.symm.trans evolves₁.base.symm
              simp only [Option.bind_eq_bind, Option.bind_some, take, Option.pure_def, base,
                rounded, Nat.add_sub_cancel_left]
              obtain ⟨a₂, run₂, evolves₂⟩ := align_run evolves₁.realizes hn takes.allocated
                takes.apart gridGap gridR (by omega) (by omega) multiple
              rw [evolves₁.base] at run₂
              exact ⟨a₂, (bind_ok run₁).trans run₂,
                evolves₁.trans (evolves₂.mono fun i hi => takes.vacant i hi)⟩

/-- The last part of `sbrk`, once the end of the last block is known. -/
def moveAbove (brk floor : Nat) (increment : Int) : Action Nat := do
  if increment < 0 then
    let spare ← orPanic (Word.sub brk floor)
    if spare < increment.natAbs then fail .outOfMemory
  let previous ← moveBreak increment
  orPanic ((← get).heap.address previous)

theorem sbrk_eq (h : Realizes a l) (increment : Int) :
    sbrk increment a = moveAbove l.brk l.floor increment a := by
  rw [sbrk, get_bind, h.tail, h.brk]
  rcases List.eq_nil_or_concat' l.blocks with empty | ⟨pre, b, eq⟩
  · have floor : l.floor = 0 := by
      rw [Layout.floor, empty]
      rfl
    rw [empty, floor]
    rfl
  · have hb : b ∈ l.blocks := by simp [eq]
    have last : lastOffset none l.blocks = some b.offset := by
      rw [eq]
      exact lastOffset_append none pre [b]
    have floor : l.floor = b.offset + b.size := by
      rw [Layout.floor, eq, List.getLast?_concat]
      rfl
    have bound := h.brk_le
    have below := (h.ascending.mem hb).2.2.2.2
    simp only [stop] at below
    have sum : Word.add b.offset b.size = .ok (b.offset + b.size) :=
      Word.add_eq_ok_iff.mpr ⟨rfl, by simp only [Word.limit]; omega⟩
    rw [last, floor]
    apply (bind_ok (h.header_of_mem hb)).trans
    rw [h.cell_eq eq, header_size, sum, orPanic_ok_bind]
    rfl

theorem Realizes.floor_le (h : Realizes a l) : l.floor ≤ l.brk := by
  simp only [Layout.floor]
  cases last : l.blocks.getLast? with
  | none => exact Nat.zero_le _
  | some b => exact (h.ascending.mem (List.mem_of_getLast? last)).2.2.2.2

theorem Realizes.ascending_floor (h : Realizes a l) : Ascending 0 l.floor l.blocks := by
  rcases List.eq_nil_or_concat' l.blocks with empty | ⟨pre, b, eq⟩
  · rw [empty]
    exact Nat.zero_le _
  · have floor : l.floor = b.stop := by
      rw [Layout.floor, eq, List.getLast?_concat]
      rfl
    obtain ⟨m, front, low, grid, size, large, -⟩ := ascending_append.mp (eq ▸ h.ascending)
    rw [eq, floor]
    exact ascending_append.mpr ⟨m, front, low, grid, size, large, Nat.le_refl _⟩

theorem moveBreak_run (h : Realizes a l) {increment : Int}
    (room : 0 ≤ (l.brk : Int) + increment ∧ (l.brk : Int) + increment ≤ l.capacity) :
    (do
        let previous ← moveBreak increment
        orPanic ((← get).heap.address previous) : Action Nat) a =
      (.ok (a.heap.base + l.brk), { a with heap.brk := ((l.brk : Int) + increment).toNat }) := by
  have placed := h.placed.brk_le
  rw [← h.brk, ← h.capacity] at room
  rw [← h.brk]
  have moved : a.heap.extend increment =
      .ok (a.heap.brk, { a.heap with brk := ((a.heap.brk : Int) + increment).toNat }) :=
    if_pos room
  rw [bind_ok (by rw [moveBreak, get_bind, moved]; rfl), get_bind]
  exact congrArg (fun e => (orPanic e : Action Nat) _) (if_pos placed)

theorem moveBreak_exhausted (h : Realizes a l) {increment : Int} {f : Nat → Action Nat}
    (full : (l.capacity : Int) < (l.brk : Int) + increment) :
    (moveBreak increment >>= f) a = (.error (.error .outOfMemory), a) := by
  have refused : a.heap.extend increment = .error .outOfMemory := by
    simp only [Heap.extend, h.brk, h.capacity]
    rw [if_neg (by omega)]
  exact bind_error (by rw [moveBreak, get_bind, refused]; rfl)

/-- The break is the only thing that moves. -/
theorem sbrk_run (window : Nat → Prop) (h : Realizes a l) (increment : Int) :
    match l.moveBreak increment with
    | none => sbrk increment a = (.error (.error .outOfMemory), a)
    | some l' => sbrk increment a = (.ok (a.heap.base + l.brk), { a with heap.brk := l'.brk }) ∧
        Evolves window l l' a { a with heap.brk := l'.brk } := by
  have low := h.floor_le
  have placed := h.placed.brk_le
  rw [h.brk, h.capacity] at placed
  have spare : Word.sub l.brk l.floor = .ok (l.brk - l.floor) :=
    Word.sub_eq_ok_iff.mpr ⟨low, rfl⟩
  have advanced (floor : l.floor ≤ (l.brk : Int) + increment)
      (room : (l.brk : Int) + increment ≤ l.capacity) :
      Evolves window l { l with brk := ((l.brk : Int) + increment).toNat } a
        { a with heap.brk := ((l.brk : Int) + increment).toNat } :=
    Evolves.advance window h (h.ascending_floor.mono (Nat.le_refl 0) (by omega))
      (h.capacity ▸ by omega)
  rw [sbrk_eq h, moveAbove, spare]
  simp only [Layout.moveBreak]
  by_cases back : increment < 0
  · rw [if_pos back, orPanic_ok_bind]
    by_cases deep : l.brk - l.floor < increment.natAbs
    · rw [if_pos deep, if_neg (by omega)]
      exact bind_error (run_fail _)
    · rw [if_neg deep, if_pos (by omega)]
      exact ⟨moveBreak_run h (by omega), advanced (by omega) (by omega)⟩
  · rw [if_neg back]
    by_cases room : (l.brk : Int) + increment ≤ l.capacity
    · rw [if_pos ⟨fun negative => absurd negative back, room⟩]
      exact ⟨moveBreak_run h (by omega), advanced (by omega) room⟩
    · rw [if_neg fun both => room both.2]
      exact moveBreak_exhausted h (by omega)

end Confine.Allocator
