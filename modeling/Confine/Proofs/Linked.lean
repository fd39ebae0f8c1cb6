import Confine.Proofs.HeaderCell
import Confine.Proofs.Layout.Operations

/-! # Layouts in the bytes of a heap

`Realizes` says that the bytes of a heap hold the headers of a layout, doubly linked in its order.
Every operation rewrites a few header cells, which `Stores` records, and `Evolves` says what the
whole of them does: which layout the heap realizes afterwards, which bytes are the same, and that no
cell outside of the list begins to look like the header of an allocated block.
-/

namespace Confine

namespace Header

/-- A header that is free and names a predecessor within reach of the addresses. -/
def Calm (h : Header) : Prop :=
  h.allocated = false ∧ ∃ p, h.prev = some p ∧ p < 2 ^ 62

end Header

namespace Block

/-- The header of a block between its neighbours. -/
def header (b : Block) (prev next : Option Nat) : Header :=
  { prev, next, size := b.size, allocated := b.allocated, reserved := 0 }

@[simp] theorem header_prev (b : Block) (prev next : Option Nat) :
    (b.header prev next).prev = prev := rfl

@[simp] theorem header_next (b : Block) (prev next : Option Nat) :
    (b.header prev next).next = next := rfl

@[simp] theorem header_size (b : Block) (prev next : Option Nat) :
    (b.header prev next).size = b.size := rfl

@[simp] theorem header_allocated (b : Block) (prev next : Option Nat) :
    (b.header prev next).allocated = b.allocated := rfl

def firstOffset (behind : Option Nat) : List Block → Option Nat
  | [] => behind
  | b :: _ => some b.offset

@[simp] theorem firstOffset_cons (behind : Option Nat) (b : Block) (bs : List Block) :
    firstOffset behind (b :: bs) = some b.offset := rfl

def lastOffset (before : Option Nat) : List Block → Option Nat
  | [] => before
  | b :: rest => lastOffset (some b.offset) rest

/-- The cells hold the headers of the blocks, each linked to both of its neighbours. -/
def Linked (cell : Nat → Header) (before behind : Option Nat) : List Block → Prop
  | [] => True
  | b :: rest =>
      cell b.offset = b.header before (firstOffset behind rest) ∧
        Linked cell (some b.offset) behind rest

section Linked

variable {cell cell' : Nat → Header} {before behind : Option Nat} {b : Block} {bs cs : List Block}

theorem firstOffset_append (behind : Option Nat) (bs cs : List Block) :
    firstOffset behind (bs ++ cs) = firstOffset (firstOffset behind cs) bs := by
  cases bs <;> rfl

theorem lastOffset_append (before : Option Nat) (bs cs : List Block) :
    lastOffset before (bs ++ cs) = lastOffset (lastOffset before bs) cs := by
  induction bs generalizing before with
  | nil => rfl
  | cons b rest ih => exact ih (some b.offset)

theorem lastOffset_cases (before : Option Nat) (bs : List Block) :
    lastOffset before bs = before ∨ ∃ b ∈ bs, lastOffset before bs = some b.offset := by
  induction bs generalizing before with
  | nil => exact .inl rfl
  | cons b rest ih =>
      rcases ih (some b.offset) with first | ⟨c, hc, eq⟩
      · exact .inr ⟨b, List.mem_cons_self, first⟩
      · exact .inr ⟨c, List.mem_cons_of_mem b hc, eq⟩

theorem linked_append :
    Linked cell before behind (bs ++ cs) ↔
      Linked cell before (firstOffset behind cs) bs ∧
        Linked cell (lastOffset before bs) behind cs := by
  induction bs generalizing before with
  | nil => exact ⟨fun h => ⟨trivial, h⟩, And.right⟩
  | cons b rest ih =>
      simp only [List.cons_append, Linked, lastOffset, firstOffset_append, ih, and_assoc]

theorem Linked.congr (h : Linked cell before behind bs)
    (same : ∀ b ∈ bs, cell' b.offset = cell b.offset) : Linked cell' before behind bs := by
  induction bs generalizing before with
  | nil => trivial
  | cons b rest ih =>
      exact ⟨(same b List.mem_cons_self).trans h.1,
        ih h.2 fun c hc => same c (List.mem_cons_of_mem b hc)⟩

theorem Linked.cell_eq (h : Linked cell before behind (bs ++ b :: cs)) :
    cell b.offset = b.header (lastOffset before bs) (firstOffset behind cs) :=
  (linked_append.mp h).2.1

theorem Linked.relink {e : Option Nat} (h : Linked cell before behind (b :: bs))
    (first : cell' b.offset = { cell b.offset with prev := e })
    (same : ∀ c ∈ bs, cell' c.offset = cell c.offset) : Linked cell' e behind (b :: bs) := by
  refine ⟨?_, h.2.congr same⟩
  rw [first, h.1]
  rfl

end Linked

end Block

namespace Allocator

open Block

variable {a a' a'' : Allocator} {l l' l'' : Layout} {o : Nat} {hd : Header}

def put (a : Allocator) (o : Nat) (hd : Header) : Allocator :=
  { a with heap := a.heap.withHeader o hd }

/-- The two states differ at most in the ends of the list and the bytes of some header cells. -/
structure Stores (cells : Nat → Prop) (a a' : Allocator) : Prop where
  base : a'.heap.base = a.heap.base
  capacity : a'.heap.capacity = a.heap.capacity
  brk : a'.heap.brk = a.heap.brk
  growths : a'.growths = a.growths
  height : a'.heap.memory.height = a.heap.memory.height
  bytes : ∀ i, ¬cells (i / 32 * 32) → a'.heap.memory.get i = a.heap.memory.get i

namespace Stores

variable {cells cells' : Nat → Prop}

theorem trans (h : Stores cells a a') (h' : Stores cells a' a'') : Stores cells a a'' :=
  ⟨h'.base.trans h.base, h'.capacity.trans h.capacity, h'.brk.trans h.brk,
    h'.growths.trans h.growths, h'.height.trans h.height,
    fun i hi => (h'.bytes i hi).trans (h.bytes i hi)⟩

theorem mono (h : Stores cells a a') (le : ∀ c, cells c → cells' c) : Stores cells' a a' :=
  ⟨h.base, h.capacity, h.brk, h.growths, h.height, fun i hi => h.bytes i fun hc => hi (le _ hc)⟩

theorem placed (h : Stores cells a a') (placed : a.heap.Placed) : a'.heap.Placed :=
  ⟨h.base ▸ placed.base_dvd, h.base ▸ placed.base_le, h.capacity ▸ placed.capacity_le,
    h.capacity ▸ h.brk ▸ placed.brk_le, h.capacity ▸ h.height ▸ placed.spans⟩

theorem headerAt (h : Stores cells a a') {c : Nat} (grid : 32 ∣ c) (other : ¬cells c) :
    a'.heap.headerAt c = a.heap.headerAt c :=
  Heap.headerAt_congr fun i low high => h.bytes i (by
    have : i / 32 * 32 = c := by omega
    rwa [this])

theorem put (a : Allocator) (hd : Header) (grid : 32 ∣ o) : Stores (· = o) a (a.put o hd) :=
  ⟨rfl, rfl, rfl, rfl, Heap.withHeader_height o hd, fun i hi => a.heap.get_withHeader hd (by omega)⟩

theorem tail (a : Allocator) (cells : Nat → Prop) (t : Option Nat) :
    Stores cells a { a with tail := t } :=
  ⟨rfl, rfl, rfl, rfl, rfl, fun _ _ => rfl⟩

end Stores

theorem headerOf_eq (placed : a.heap.Placed) (grid : 32 ∣ o) (below : o + 32 ≤ a.heap.brk) :
    a.headerOf o = .ok (a.heap.headerAt o) := by
  simp only [headerOf, Heap.header?_eq placed (Nat.dvd_trans (by decide) grid) below]
  rfl

theorem header_run (placed : a.heap.Placed) (grid : 32 ∣ o) (below : o + 32 ≤ a.heap.brk) :
    header o a = (.ok (a.heap.headerAt o), a) := by
  rw [header, get_bind, headerOf_eq placed grid below, run_orPanic_ok]

theorem storeHeader_run (placed : a.heap.Placed) (hd : Header) (grid : 32 ∣ o)
    (below : o + 32 ≤ a.heap.brk) : storeHeader o hd a = (.ok (), a.put o hd) := by
  simp only [storeHeader, get_bind,
    Heap.storeHeader?_eq placed hd (Nat.dvd_trans (by decide) grid) below, orPanic_ok_bind]
  rfl

theorem update_run (placed : a.heap.Placed) (change : Header → Header) (grid : 32 ∣ o)
    (below : o + 32 ≤ a.heap.brk) :
    update o change a = (.ok (), a.put o (change (a.heap.headerAt o))) := by
  rw [update, bind_ok (header_run placed grid below), storeHeader_run placed _ grid below]

/-- The bytes of the heap hold the block list of the layout. -/
structure Realizes (a : Allocator) (l : Layout) : Prop where
  placed : a.heap.Placed
  base : a.heap.base = l.base
  capacity : a.heap.capacity = l.capacity
  brk : a.heap.brk = l.brk
  ascending : Ascending 0 l.brk l.blocks
  linked : Linked a.heap.headerAt none none l.blocks
  head : a.head = firstOffset none l.blocks
  tail : a.tail = lastOffset none l.blocks
  growths : a.growths = l.growths

namespace Realizes

variable {b : Block} {bs cs : List Block}

theorem brk_le (h : Realizes a l) : l.brk ≤ 2 ^ 62 := by
  have := h.placed.brk_le
  have := h.placed.capacity_le
  have := h.brk
  omega

theorem cell_of_mem (h : Realizes a l) (hb : b ∈ l.blocks) :
    32 ∣ b.offset ∧ b.offset + 32 ≤ a.heap.brk := by
  obtain ⟨-, grid, -, large, below⟩ := h.ascending.mem hb
  have := h.brk
  simp only [stop] at below
  exact ⟨grid, by omega⟩

theorem header_of_mem (h : Realizes a l) (hb : b ∈ l.blocks) :
    header b.offset a = (.ok (a.heap.headerAt b.offset), a) :=
  header_run h.placed (h.cell_of_mem hb).1 (h.cell_of_mem hb).2

theorem cell_eq (h : Realizes a l) (eq : l.blocks = bs ++ b :: cs) :
    a.heap.headerAt b.offset = b.header (lastOffset none bs) (firstOffset none cs) :=
  Linked.cell_eq (eq ▸ h.linked)

theorem last_lt (h : Realizes a l) (bs : List Block) (sub : ∀ b ∈ bs, b ∈ l.blocks) {p : Nat}
    (hp : lastOffset none bs = some p) : p < 2 ^ 62 := by
  rcases lastOffset_cases none bs with none | ⟨b, hb, eq⟩
  · rw [none] at hp
    cases hp
  · rw [eq] at hp
    cases hp
    have := h.brk
    have := (h.cell_of_mem (sub b hb)).2
    have := h.brk_le
    omega

theorem first_lt (h : Realizes a l) (bs : List Block) (sub : ∀ b ∈ bs, b ∈ l.blocks) {p : Nat}
    (hp : firstOffset none bs = some p) : p < 2 ^ 62 := by
  cases bs with
  | nil => cases hp
  | cons b rest =>
      cases hp
      have := h.brk
      have := (h.cell_of_mem (sub b List.mem_cons_self)).2
      have := h.brk_le
      omega

end Realizes

theorem fits_header {b : Block} {prev next : Option Nat} (hp : ∀ p, prev = some p → p < 2 ^ 62)
    (hn : ∀ n, next = some n → n < 2 ^ 62) (hs : b.size ≤ 2 ^ 62) : (b.header prev next).Fits := by
  refine ⟨?_, ?_, ?_, Nat.two_pow_pos 63⟩
  · intro p eq
    have := hp p eq
    simp only [Word.max, Word.limit]
    omega
  · intro n eq
    have := hn n eq
    simp only [Word.max, Word.limit]
    omega
  · simp only [Block.header, Word.limit]
    omega

theorem headerAt_put_self (placed : a.heap.Placed) (fits : hd.Fits) (below : o + 32 ≤ a.heap.brk) :
    (a.put o hd).heap.headerAt o = hd :=
  Heap.headerAt_withHeader_self placed fits below

/-- No cell of the grid outside of the list looks like the header of an allocated block. -/
def Quiet (a : Allocator) (bs : List Block) : Prop :=
  ∀ c, 32 ∣ c → (∀ b ∈ bs, b.offset ≠ c) → (a.heap.headerAt c).Calm

/-- What an operation does to a heap: it realizes another layout, and changes no byte outside of the
headers of the list and of the cells in the window. -/
structure Evolves (window : Nat → Prop) (l l' : Layout) (a a' : Allocator) : Prop where
  realizes : Realizes a' l'
  base : a'.heap.base = a.heap.base
  capacity : a'.heap.capacity = a.heap.capacity
  bytes : ∀ i, (∀ b ∈ l.blocks, b.offset ≠ i / 32 * 32) → ¬window (i / 32 * 32) →
    a'.heap.memory.get i = a.heap.memory.get i
  listed : ∀ b ∈ l'.blocks, (∃ c ∈ l.blocks, c.offset = b.offset) ∨ window b.offset
  quiet : a.Quiet l.blocks → a'.Quiet l'.blocks

namespace Evolves

variable {window window' : Nat → Prop}

theorem refl (window : Nat → Prop) (h : Realizes a l) : Evolves window l l a a where
  realizes := h
  base := rfl
  capacity := rfl
  bytes _ _ _ := rfl
  listed b hb := .inl ⟨b, hb, rfl⟩
  quiet := id

theorem trans (h : Evolves window l l' a a') (h' : Evolves window l' l'' a' a'') :
    Evolves window l l'' a a'' where
  realizes := h'.realizes
  base := h'.base.trans h.base
  capacity := h'.capacity.trans h.capacity
  bytes i unlisted outside := by
    have unlisted' : ∀ b ∈ l'.blocks, b.offset ≠ i / 32 * 32 := by
      intro b hb eq
      rcases h.listed b hb with ⟨c, hc, same⟩ | inside
      · exact unlisted c hc (same.trans eq)
      · exact outside (eq ▸ inside)
    exact (h'.bytes i unlisted' outside).trans (h.bytes i unlisted outside)
  listed b hb := by
    rcases h'.listed b hb with ⟨c, hc, same⟩ | inside
    · rcases h.listed c hc with ⟨d, hd, same'⟩ | inside
      · exact .inl ⟨d, hd, same'.trans same⟩
      · exact .inr (same ▸ inside)
    · exact .inr inside
  quiet was := h'.quiet (h.quiet was)

theorem record (g : Growth) (h : Evolves window l l' a a') :
    Evolves window l { l' with growths := g :: l'.growths } a
      { a' with growths := g :: a'.growths } where
  realizes :=
    { h.realizes with growths := congrArg (g :: ·) h.realizes.growths }
  base := h.base
  capacity := h.capacity
  bytes := h.bytes
  listed := h.listed
  quiet := h.quiet

theorem mono (h : Evolves window l l' a a') (le : ∀ c, window c → window' c) :
    Evolves window' l l' a a' where
  realizes := h.realizes
  base := h.base
  capacity := h.capacity
  bytes i unlisted outside := h.bytes i unlisted fun inside => outside (le _ inside)
  listed b hb := (h.listed b hb).imp_right (le _)
  quiet := h.quiet

end Evolves

end Allocator

end Confine
