import Confine.Proofs.Rearranging

/-! # Taking and releasing blocks

The search for a free block, the growth of the heap, and the cutting and merging that follow, each
with the layout it leads to.
-/

namespace Confine.Allocator

open Block

variable {a a' : Allocator} {l : Layout} {b : Block} {pre rest : List Block} {required : Nat}

theorem firstFitFrom_eq (required : Nat) {before : Option Nat} {s bound : Nat} {bs : List Block}
    (placed : a.heap.Placed) (ascending : Ascending s a.heap.brk bs)
    (linked : Linked a.heap.headerAt before none bs) (enough : bs.length ≤ bound) :
    a.firstFitFrom required bound (firstOffset none bs) =
      .ok ((bs.find? (Layout.serves required)).map (·.offset)) := by
  induction bs generalizing before s bound with
  | nil => cases bound <;> rfl
  | cons b rest ih =>
      obtain ⟨-, grid, -, large, back⟩ := ascending
      have := back.le
      simp only [stop] at this
      cases bound with
      | zero => simp at enough
      | succ bound =>
          have searched := ih back linked.2 (by simpa using enough)
          rw [firstOffset_cons, firstFitFrom, headerOf_eq placed grid (by omega), linked.1,
            List.find?_cons]
          cases fits : Layout.serves required b with
          | false => exact (if_neg (Bool.eq_false_iff.mp fits)).trans searched
          | true => exact if_pos fits

theorem firstFit_run (h : Realizes a l) :
    firstFit required a = (.ok ((l.blocks.find? (Layout.serves required)).map (·.offset)), a) := by
  have length := h.ascending.length_le
  have brk := h.brk
  have enough : l.blocks.length ≤ a.walkBound := by
    simp only [walkBound]
    omega
  have found := firstFitFrom_eq required h.placed (brk ▸ h.ascending) h.linked enough
  rw [firstFit, get_bind, h.head, found]
  rfl

theorem claim_run {padding size : Nat} (placed : a.heap.Placed)
    (room : a.heap.brk + (padding + size) ≤ a.heap.capacity) :
    claim padding size a =
      (.ok (a.heap.brk + padding), { a with heap.brk := a.heap.brk + (padding + size) }) := by
  have small := placed.capacity_le
  have sum : (Word.add? padding size).filter (· < 2 ^ 63) = some (padding + size) := by
    rw [Word.add?, if_pos (by simp only [Word.limit]; omega), Option.filter_some_pos]
    exact decide_eq_true (by omega)
  have moved : a.heap.extend ↑(padding + size) =
      .ok (a.heap.brk, { a.heap with brk := a.heap.brk + (padding + size) }) := by
    simp only [Heap.extend]
    rw [if_pos (by omega)]
    congr
  rw [claim, sum, orExhausted_some_bind, bind_ok (by rw [moveBreak, get_bind, moved]; rfl)]
  rfl

theorem claim_exhausted {padding size : Nat}
    (full : a.heap.capacity < a.heap.brk + (padding + size)) :
    claim padding size a = (.error (.error .outOfMemory), a) := by
  rw [claim]
  cases sum : (Word.add? padding size).filter (· < 2 ^ 63) with
  | none => rw [orExhausted_none_bind]
  | some increment =>
      have : padding + size = increment := by
        have := (Option.filter_eq_some_iff.mp sum).1
        exact (Word.add?_eq_some_iff.mp this).1
      have refused : a.heap.extend ↑increment = .error .outOfMemory := by
        simp only [Heap.extend]
        rw [if_neg (by omega)]
      rw [orExhausted_some_bind, bind_error (by rw [moveBreak, get_bind, refused]; rfl)]

theorem Evolves.advance (window : Nat → Prop) {brk : Nat} (h : Realizes a l)
    (ascending : Ascending 0 brk l.blocks) (room : brk ≤ a.heap.capacity) :
    Evolves window l { l with brk } a { a with heap.brk := brk } where
  realizes :=
    { placed := ⟨h.placed.base_dvd, h.placed.base_le, h.placed.capacity_le, room, h.placed.spans⟩
      base := h.base
      capacity := h.capacity
      brk := rfl
      ascending := ascending
      linked := h.linked
      head := h.head
      tail := h.tail
      growths := h.growths }
  base := rfl
  capacity := rfl
  bytes _ _ _ := rfl
  listed b hb := .inl ⟨b, hb, rfl⟩
  quiet := id

theorem Evolves.first {window : Nat → Prop} (new : Block) (h : Realizes a l) (empty : l.blocks = [])
    (grid : 32 ∣ new.offset) (gridSize : 32 ∣ new.size) (large : 32 ≤ new.size)
    (room : new.stop ≤ l.brk) (inside : window new.offset)
    (stores : Stores (· = new.offset) a a')
    (cell : a'.heap.headerAt new.offset = new.header none none) (head : a'.head = some new.offset)
    (tail : a'.tail = some new.offset) : Evolves window l (l.withBlocks [new]) a a' := by
  have realizes : Realizes a' (l.withBlocks [new]) :=
    { placed := stores.placed h.placed
      base := stores.base.trans h.base
      capacity := stores.capacity.trans h.capacity
      brk := stores.brk.trans h.brk
      ascending := ⟨Nat.zero_le _, grid, gridSize, large, room⟩
      linked := ⟨cell, trivial⟩
      head := head
      tail := tail
      growths := stores.growths.trans h.growths }
  apply Evolves.of_stores stores realizes
  · intro c same
    exact .inr ⟨new, List.mem_singleton_self new, same.symm⟩
  · intro d hd
    rw [List.mem_singleton.mp hd]
    exact .inr inside
  · intro d hd
    rw [empty] at hd
    cases hd

/-- The last part of `grow`, once the break has made room: the header of the new block, and the
links to it. -/
def attach (o size : Nat) : Action Nat := do
  let last := (← get).tail
  storeHeader o { prev := last, next := none, size, allocated := false, reserved := 0 }
  match last with
  | some block => update block ({ · with next := some o })
  | none => modify ({ · with head := some o })
  modify fun a => { a with tail := some o, growths := ⟨o, size⟩ :: a.growths }
  return o

theorem attach_run {o size : Nat} (h : Realizes a l) (ascending : Ascending 0 o l.blocks)
    (grid : 32 ∣ o) (gridSize : 32 ∣ size) (large : 32 ≤ size) (room : o + size ≤ l.brk) :
    ∃ a', attach o size a = (.ok o, a') ∧
      Evolves (fun c => o ≤ c) l { l with
        blocks := l.blocks ++ [⟨o, size, false⟩]
        growths := ⟨o, size⟩ :: l.growths } a a' := by
  have bound := h.brk_le
  have brk := h.brk
  have below : o + 32 ≤ a.heap.brk := by omega
  let new : Block := ⟨o, size, false⟩
  have fits : (new.header (lastOffset none l.blocks) none).Fits := fits_header
    (fun p hp => h.last_lt l.blocks (fun _ => id) hp) (fun n hn => by cases hn)
    (show size ≤ 2 ^ 62 by omega)
  have stores₁ := Stores.put a (new.header (lastOffset none l.blocks) none) grid
  have placed₁ := stores₁.placed h.placed
  have stored := storeHeader_run h.placed (new.header (lastOffset none l.blocks) none) grid below
  have keptNew := headerAt_put_self h.placed fits below
  rw [attach, get_bind, h.tail]
  rcases List.eq_nil_or_concat' l.blocks with empty | ⟨pre, t, eq⟩
  · have last : lastOffset none l.blocks = none := by rw [empty]; rfl
    rw [last] at stored keptNew stores₁ ⊢
    rw [empty]
    let a₂ : Allocator := { a.put o (new.header none none) with head := some o, tail := some o }
    have stores : Stores (· = o) a a₂ := ⟨rfl, rfl, rfl, rfl, stores₁.height, stores₁.bytes⟩
    have evolves : Evolves (fun c => o ≤ c) l (l.withBlocks [new]) a a₂ :=
      Evolves.first new h empty grid gridSize large room (Nat.le_refl o) stores keptNew rfl rfl
    exact ⟨_, (bind_ok stored).trans rfl, evolves.record ⟨o, size⟩⟩
  · -- the last block so far is linked to the new one
    have last : lastOffset none l.blocks = some t.offset := by rw [eq, lastOffset_append]; rfl
    have ht : t ∈ l.blocks := by simp [eq]
    obtain ⟨gridT, belowT⟩ := h.cell_of_mem ht
    obtain ⟨-, -, gridSizeT, largeT, roomT⟩ := ascending.mem ht
    simp only [stop] at roomT
    rw [last] at stored keptNew stores₁ placed₁ ⊢
    let a₁ := a.put o (new.header (some t.offset) none)
    let hd := t.header (lastOffset none pre) (some o)
    have keptT : a₁.heap.headerAt t.offset = t.header (lastOffset none pre) none :=
      (stores₁.headerAt gridT (by omega)).trans (h.cell_eq eq)
    have fitsT : hd.Fits := fits_header
      (fun p hp => h.last_lt pre (fun d hd => by simp [eq, hd]) hp)
      (fun n hn => by cases hn; omega) (by omega)
    have stores₂ := Stores.put a₁ hd gridT
    have updated := update_run placed₁ ({ · with next := some o }) gridT belowT
    rw [keptT] at updated
    have both : Stores (Touched (t :: ([] ++ [new])) []) a (a₁.put t.offset hd) :=
      (stores₁.mono fun _ same => .inl ⟨new, by simp, same.symm⟩).trans
        (stores₂.mono fun _ same => .inl ⟨t, by simp, same.symm⟩)
    have linked : Linked (a₁.put t.offset hd).heap.headerAt (lastOffset none pre) none [t, new] :=
      ⟨headerAt_put_self placed₁ fitsT belowT,
        (stores₂.headerAt grid (by omega)).trans keptNew, trivial⟩
    have tiles : Ascending t.offset (o + size) [t, new] :=
      ⟨Nat.le_refl _, gridT, gridSizeT, largeT, roomT, grid, gridSize, large, Nat.le_refl _⟩
    have inside : ∀ d ∈ [new], o ≤ d.offset := by
      intro d hd
      rw [List.mem_singleton.mp hd]
    let a₂ : Allocator := { a₁.put t.offset hd with tail := some o }
    have stores := both.trans (Stores.tail (a₁.put t.offset hd) _ (some o))
    have evolves : Evolves _ l (l.withBlocks (pre ++ t :: ([new] ++ []))) a a₂ :=
      Evolves.splice h eq rfl stores linked tiles room rfl rfl inside (by simp)
    refine ⟨_, (bind_ok stored).trans ((bind_ok updated).trans rfl), ?_⟩
    rw [eq, List.append_assoc]
    exact evolves.record ⟨o, size⟩

/-- The break moves over the room of a block, and the block takes it. -/
theorem advance_attach_run {o size : Nat} (h : Realizes a l) (low : l.brk ≤ o) (grid : 32 ∣ o)
    (gridSize : 32 ∣ size) (large : 32 ≤ size) (room : o + size ≤ l.capacity) :
    ∃ a', attach o size { a with heap.brk := o + size } = (.ok o, a') ∧
      Evolves (fun c => l.brk ≤ c) l
        { l with
          brk := o + size
          blocks := l.blocks ++ [⟨o, size, false⟩]
          growths := ⟨o, size⟩ :: l.growths } a a' := by
  have advanced := Evolves.advance (fun c => l.brk ≤ c) h
    (h.ascending.mono (Nat.le_refl 0) (show l.brk ≤ o + size by omega)) (h.capacity ▸ room)
  obtain ⟨a', run, evolves⟩ := attach_run advanced.realizes
    (h.ascending.mono (Nat.le_refl 0) low) grid gridSize large (Nat.le_refl _)
  exact ⟨a', run, advanced.trans (evolves.mono fun c behind => Nat.le_trans low behind)⟩

/-- The first part of `grow`: the break makes room for a whole extension, or for what is required if
the capacity cannot hold one.  It returns the offset of the room, and its size. -/
def claimRoom (padding required : Nat) : Action (Nat × Nat) :=
  tryCatch (do pure (← claim padding (max required minExtension), max required minExtension))
    fun _ => do pure (← claim padding required, required)

theorem claimRoom_run {o : Nat} (h : Realizes a l) (rounded : Word.roundUp l.brk 32 = o) :
    claimRoom (o - l.brk) required a =
      if o + l.growth required ≤ l.capacity then
        (.ok (o, l.growth required), { a with heap.brk := o + l.growth required })
      else (.error (.error .outOfMemory), a) := by
  have brk := h.brk
  have capacity := h.capacity
  have low : l.brk ≤ o := rounded ▸ Word.le_roundUp (by decide)
  have claimed {size : Nat} (room : o + size ≤ l.capacity) :
      (do pure (← claim (o - l.brk) size, size) : Action (Nat × Nat)) a =
        (.ok (o, size), { a with heap.brk := o + size }) := by
    have sum : a.heap.brk + (o - l.brk) = o := by omega
    rw [bind_ok (claim_run h.placed (by omega)), ← Nat.add_assoc, sum, run_pure]
  have refused {size : Nat} (full : ¬o + size ≤ l.capacity) :
      (do pure (← claim (o - l.brk) size, size) : Action (Nat × Nat)) a =
        (.error (.error .outOfMemory), a) :=
    bind_error (claim_exhausted (by omega))
  simp only [Layout.growth, rounded]
  by_cases wide : o + max required minExtension ≤ l.capacity
  · rw [if_pos wide, if_pos wide]
    exact tryCatch_ok (claimed wide)
  · rw [if_neg wide, claimRoom, tryCatch_error (refused wide)]
    by_cases narrow : o + required ≤ l.capacity
    · rw [if_pos narrow, claimed narrow]
    · rw [if_neg narrow, refused narrow]

theorem grow_eq {o : Nat} (h : Realizes a l) (rounded : Word.roundUp l.brk 32 = o) :
    grow required a = (claimRoom (o - l.brk) required >>= fun room => attach room.1 room.2) a := by
  have bound := h.brk_le
  have high : Word.roundUp l.brk 32 < l.brk + 32 := Word.roundUp_lt (by decide)
  have offset : Word.nextMultiple a.heap.brk Header.bytes = .ok o := by
    rw [h.brk, Word.nextMultiple, Word.roundUp?, if_pos]
    · exact congrArg Except.ok rounded
    · simp only [Header.bytes, Word.limit]
      omega
  rw [grow, get_bind, offset, orPanic_ok_bind, h.brk]
  rfl

/-- The heap grows as its layout does, or not at all. -/
theorem grow_run (h : Realizes a l) (grid : 32 ∣ required) (large : 32 ≤ required) :
    match l.grow required with
    | none => grow required a = (.error (.error .outOfMemory), a)
    | some l' => ∃ a', grow required a = (.ok (Word.roundUp l.brk 32), a') ∧
        Evolves (fun c => l.brk ≤ c) l l' a a' := by
  have low : l.brk ≤ Word.roundUp l.brk 32 := Word.le_roundUp (by decide)
  have claimed : claimRoom (Word.roundUp l.brk 32 - l.brk) required a = _ := claimRoom_run h rfl
  simp only [Layout.grow, grow_eq h rfl]
  by_cases room : Word.roundUp l.brk 32 + l.growth required ≤ l.capacity
  · rw [if_pos room] at claimed ⊢
    rw [bind_ok claimed]
    exact advance_attach_run h low (Word.dvd_roundUp l.brk 32) (Layout.dvd_growth l grid)
      (Nat.le_trans large (Layout.le_growth l required)) room
  · rw [if_neg room] at claimed ⊢
    exact bind_error claimed

theorem split_run (h : Realizes a l) (eq : l.blocks = pre ++ b :: rest) (grid : 32 ∣ required)
    (large : 32 ≤ required) (fits : required ≤ b.size) :
    ∃ a', split b.offset required a = (.ok (), a') ∧
      Evolves b.Covers l (l.withBlocks (pre ++ b.cut required rest)) a a' := by
  have hb : b ∈ l.blocks := by simp [eq]
  obtain ⟨-, -, gridB, -, room⟩ := h.ascending.mem hb
  have bound := h.brk_le
  simp only [stop] at room
  have left : Word.sub b.size required = .ok (b.size - required) :=
    Word.sub_eq_ok_iff.mpr ⟨fits, rfl⟩
  rw [split, bind_ok (h.header_of_mem hb), h.cell_eq eq, header_size, left, orPanic_ok_bind]
  by_cases small : b.size ≤ required + 32
  · refine ⟨a, ?_, ?_⟩
    · rw [if_pos (by simp only [Header.bytes]; omega)]
      rfl
    · have same : l.withBlocks (pre ++ b :: rest) = l := by rw [← eq]; rfl
      rw [cut, if_pos small, same]
      exact Evolves.refl _ h
  · have sum : Word.add b.offset required = .ok (b.offset + required) :=
      Word.add_eq_ok_iff.mpr ⟨rfl, by simp only [Word.limit]; omega⟩
    rw [if_neg (by simp only [Header.bytes]; omega), sum, orPanic_ok_bind, header_next, cut,
      if_neg small]
    let x : Block := { b with size := required }
    let y : Block := ⟨b.offset + required, b.size - required, false⟩
    obtain ⟨a₁, run₁, evolves₁⟩ := divide_run x y
      ({ · with size := required, next := some (b.offset + required) }) h eq rfl rfl
      (by simp only [x, y]; omega) grid large (by simp only [y]; omega) fun _ _ => rfl
    obtain ⟨a₂, run₂, evolves₂⟩ := coalesce_run b.Covers evolves₁.realizes
      (show pre ++ x :: y :: rest = pre ++ [x] ++ y :: rest by simp)
    refine ⟨a₂, ?_, ?_⟩
    · exact (run₁ fun _ => coalesce y.offset).trans run₂
    · have list : pre ++ [x] ++ y.absorb rest = pre ++ x :: y.absorb rest := by simp
      rw [list] at evolves₂
      exact evolves₁.trans evolves₂

theorem occupy_run (h : Realizes a l) (eq : l.blocks = pre ++ b :: rest) (front : Apart pre)
    (back : Apart rest) (grid : 32 ∣ required) (large : 32 ≤ required) (fits : required ≤ b.size) :
    ∃ a', (do
        split b.offset required
        update b.offset ({ · with allocated := true })
        return b.offset : Action Nat) a = (.ok b.offset, a') ∧
      Evolves b.Covers l (l.replace b.offset (·.pieces 0 required)) a a' := by
  obtain ⟨a₁, run₁, evolves₁⟩ := split_run h eq grid large fits
  obtain ⟨x, tail, first, marked, offset⟩ : ∃ x tail, b.cut required rest = x :: tail ∧
      cut { b with allocated := true } required rest = { x with allocated := true } :: tail ∧
      x.offset = b.offset := by
    simp only [cut]
    split
    · exact ⟨b, rest, rfl, rfl, rfl⟩
    · exact ⟨{ b with size := required }, _, rfl, rfl, rfl⟩
  rw [first] at evolves₁
  obtain ⟨a₂, run₂, evolves₂⟩ := mark_run b.Covers { x with allocated := true }
    ({ · with allocated := true }) evolves₁.realizes rfl rfl rfl fun _ _ => rfl
  rw [offset] at run₂
  refine ⟨a₂, (bind_ok run₁).trans ((bind_ok run₂).trans rfl), ?_⟩
  have whole := eq ▸ h.ascending
  rw [Layout.replace, eq, replaceAt_append whole, List.append_assoc, compact_pieces front back,
    marked]
  exact evolves₁.trans evolves₂

theorem takeBlock_run (h : Realizes a l) (apart : Apart l.blocks) (grid : 32 ∣ required)
    (large : 32 ≤ required) :
    match l.take required with
    | none => takeBlock required a = (.error (.error .outOfMemory), a)
    | some (o, l') => ∃ a', takeBlock required a = (.ok o, a') ∧ Evolves l.Vacant l l' a a' := by
  simp only [Layout.take, Layout.find]
  rw [takeBlock, bind_ok (firstFit_run h)]
  cases found : l.blocks.find? (Layout.serves required) with
  | some b =>
      obtain ⟨serves, pre, rest, eq, -⟩ := List.find?_eq_some_iff_append.mp found
      simp only [Layout.serves, Bool.and_eq_true, Bool.not_eq_true', decide_eq_true_eq] at serves
      rw [eq] at apart
      obtain ⟨a', run, evolves⟩ := occupy_run h eq apart.left_of_append
        apart.right_of_append.of_cons grid large serves.2
      refine ⟨a', run, evolves.mono fun c hc => .inl ⟨b, by simp [eq], serves.1, hc⟩⟩
  | none =>
      have grown := grow_run h grid large
      cases growth : l.grow required with
      | none =>
          rw [growth] at grown
          exact bind_error grown
      | some l₁ =>
          rw [growth] at grown
          obtain ⟨a₁, run₁, evolves₁⟩ := grown
          obtain ⟨-, rfl⟩ := Layout.grow_eq_some growth
          obtain ⟨a₂, run₂, evolves₂⟩ := occupy_run evolves₁.realizes rfl apart
            List.isChain_nil grid large (l.le_growth required)
          refine ⟨a₂, (bind_ok run₁).trans run₂, ?_⟩
          have low : l.brk ≤ Word.roundUp l.brk 32 := Word.le_roundUp (by decide)
          exact (evolves₁.mono fun c hc => .inr hc).trans
            (evolves₂.mono fun c hc => .inr (Nat.le_trans low hc.1))

/-- The mark is taken off a block, and the block merged with both of its neighbours. -/
theorem release_run (window : Nat → Prop) (h : Realizes a l) (apart : Apart l.blocks)
    (hb : b ∈ l.blocks) :
    ∃ a', release b.offset a = (.ok (), a') ∧ Evolves window l (l.free b.offset) a a' := by
  obtain ⟨pre, rest, eq⟩ := List.append_of_mem hb
  let x : Block := { b with allocated := false }
  obtain ⟨a₁, run₁, evolves₁⟩ := mark_run window x ({ · with allocated := false }) h
    eq rfl rfl fun _ _ => rfl
  obtain ⟨a₂, run₂, evolves₂⟩ := coalesce_run window evolves₁.realizes rfl
  obtain ⟨size, tail, first⟩ := absorb_eq_cons x rest
  rw [first] at evolves₂
  have back : Apart rest := (eq ▸ apart).right_of_append.of_cons
  have cell := evolves₂.realizes.cell_eq (b := ⟨x.offset, size, x.allocated⟩) rfl
  have header₂ := evolves₂.realizes.header_of_mem (b := ⟨x.offset, size, x.allocated⟩)
    (by simp [Layout.withBlocks])
  rw [cell] at header₂
  rw [release, bind_ok run₁, bind_ok run₂, bind_ok header₂, header_prev, Layout.free,
    Layout.replace, eq, replaceAt_append (eq ▸ h.ascending), List.append_assoc,
    List.singleton_append]
  rcases List.eq_nil_or_concat' pre with rfl | ⟨front, p, rfl⟩
  · refine ⟨a₂, rfl, ?_⟩
    rw [List.nil_append, compact, compact_eq_self back, first]
    exact evolves₁.trans evolves₂
  · -- the predecessor may absorb what the block has become
    have last : lastOffset none (front ++ [p]) = some p.offset := lastOffset_append none front [p]
    have list : front ++ [p] ++ x.absorb rest = front ++ p :: x.absorb rest := by simp
    have list₂ : front ++ [p] ++ ⟨x.offset, size, x.allocated⟩ :: tail =
        front ++ p :: x.absorb rest := by
      rw [← first, list]
    obtain ⟨a₃, run₃, evolves₃⟩ := coalesce_run window evolves₂.realizes list₂
    refine ⟨a₃, ?_, ?_⟩
    · rw [last]
      exact run₃
    · have apartFront : Apart (front ++ [p]) := (eq ▸ apart).left_of_append
      rw [List.append_assoc, List.singleton_append, compact_append apartFront, compact,
        compact_eq_self back]
      exact evolves₁.trans (evolves₂.trans evolves₃)

end Confine.Allocator
