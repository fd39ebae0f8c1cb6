import Confine.Proofs.Client.BlockList
import Mathlib.Algebra.Group.Int.Defs

/-! # Progress

Every request of an honest program has an answer: no sum or difference of an operation leaves the
words, no header lies outside of the used heap, and every walk over the list comes to its end.
-/

namespace Confine

open Block Layout Allocator

namespace Allocator

variable {a : Allocator} {l : Layout}

def liveCount (bs : List Block) : Nat :=
  (bs.filter (·.allocated)).length

/-- The allocated blocks of the list are few enough for a count of them. -/
def Countable (a : Allocator) : Prop :=
  ∀ bs, a.blocks = .ok bs → liveCount bs < Word.countLimit

theorem liveCount_le (bs : List Block) : liveCount bs ≤ bs.length :=
  List.length_filter_le _ bs

theorem liveUsageFrom_eq {before : Option Nat} {s bound : Nat} {bs : List Block}
    (bytes count : Nat) (placed : a.heap.Placed) (ascending : Ascending s a.heap.brk bs)
    (linked : Linked a.heap.headerAt before none bs) (enough : bs.length ≤ bound)
    (small : bytes ≤ s) (counted : count < Word.countLimit) :
    a.liveUsageFrom bound (firstOffset none bs) bytes count =
      if count + liveCount bs < Word.countLimit then
        .ok (bytes + ((bs.filter (·.allocated)).map (·.size)).sum, count + liveCount bs)
      else .error (.panic .addOverflow) := by
  induction bs generalizing before s bound bytes count with
  | nil => cases bound <;> exact (if_pos counted).symm
  | cons b rest ih =>
      obtain ⟨low, grid, -, large, back⟩ := ascending
      have below := back.le
      have := placed.brk_le
      have := placed.capacity_le
      simp only [stop] at below
      cases bound with
      | zero => simp at enough
      | succ bound =>
          have enough : rest.length ≤ bound := by simpa using enough
          rw [firstOffset_cons, liveUsageFrom, headerOf_eq placed grid (by omega), linked.1]
          cases allocated : b.allocated with
          | false =>
              have walked := ih bytes count back linked.2 enough
                (by simp only [stop]; omega) counted
              have same : liveCount (b :: rest) = liveCount rest := by simp [liveCount, allocated]
              simpa [allocated, same] using walked
          | true =>
              -- the sizes so far are those of blocks that lie apart below the break
              have sum : Word.add bytes b.size = .ok (bytes + b.size) :=
                Word.add_eq_ok_iff.mpr ⟨rfl, by simp only [Word.limit]; omega⟩
              have one : liveCount (b :: rest) = 1 + liveCount rest := by
                simp [liveCount, allocated, Nat.add_comm]
              by_cases more : count + 1 < Word.countLimit
              · have next : Word.increment count = .ok (count + 1) := if_pos more
                have walked := ih (bytes + b.size) (count + 1) back linked.2 enough
                  (by simp only [stop]; omega) more
                simpa [allocated, one, sum, next, Nat.add_assoc] using walked
              · have full : Word.increment count = .error .addOverflow := if_neg more
                have many : ¬count + liveCount (b :: rest) < Word.countLimit := by omega
                rw [if_neg many]
                simp [allocated, sum, full]

/-- The list has few blocks, and every walk over it ends after the last of them. -/
structure Finite (a : Allocator) (bs : List Block) : Prop where
  short : bs.length ≤ a.heap.brk / 32
  walk : ∀ limit, a.firstBlocks limit = .ok (bs.take limit)
  search : ∀ required bound, bs.length ≤ bound →
    a.firstFitFrom required bound a.head =
      .ok ((bs.find? fun b => !b.allocated && required ≤ b.size).map (·.offset))
  usage : ∀ bound, bs.length ≤ bound →
    a.liveUsageFrom bound a.head 0 0 =
      .ok (((bs.filter (·.allocated)).map (·.size)).sum, (bs.filter (·.allocated)).length)

namespace Realizes

variable (h : Realizes a l)

include h

theorem countable_iff : a.Countable ↔ liveCount l.blocks < Word.countLimit := by
  simp only [Countable, h.blocks_eq, Except.ok.injEq, forall_eq']

theorem usage_eq {bound : Nat} (enough : l.blocks.length ≤ bound) :
    a.liveUsageFrom bound a.head 0 0 =
      if liveCount l.blocks < Word.countLimit then
        .ok (((l.blocks.filter (·.allocated)).map (·.size)).sum, liveCount l.blocks)
      else .error (.panic .addOverflow) := by
  have counted := liveUsageFrom_eq 0 0 h.placed (h.brk ▸ h.ascending) h.linked enough
    (Nat.le_refl 0) (by decide : 0 < Word.countLimit)
  simpa only [h.head, Nat.zero_add] using counted

theorem liveUsage_eq : a.liveUsage =
    if liveCount l.blocks < Word.countLimit then
      .ok (((l.blocks.filter (·.allocated)).map (·.size)).sum, liveCount l.blocks)
    else .error (.panic .addOverflow) := by
  have length := h.length_le
  refine h.usage_eq ?_
  simp only [walkBound]
  omega

/-- A region of less than `2 ^ 36` bytes has no room for more blocks than can be counted. -/
theorem countable_of_small (small : a.heap.capacity < 2 ^ 36) : a.Countable := by
  have length := h.length_le
  have brk := h.placed.brk_le
  have live := liveCount_le l.blocks
  rw [h.countable_iff]
  simp only [Word.countLimit]
  omega

theorem finite (few : a.Countable) : a.Finite l.blocks where
  short := h.length_le
  walk := h.firstBlocks_eq
  search required bound enough := by
    rw [h.head]
    exact firstFitFrom_eq required h.placed (h.brk ▸ h.ascending) h.linked enough
  usage bound enough := (h.usage_eq enough).trans (if_pos (h.countable_iff.mp few))

end Realizes

end Allocator

namespace Client

variable {s : Client} {l : Layout} {heap : Heap} {request : Request Nat}

theorem isPanic_access (s : Client) (access : Access Nat) :
    (s.reply (.access access)).isPanic = false := by
  simp only [reply, perform]
  split
  · rfl
  · cases access <;> rfl

theorem Sound.isPanic (h : Sound s l) (careful : s.Careful request) :
    (s.reply request).isPanic = false := by
  cases request with
  | operation op =>
      obtain ⟨result, answers, advance⟩ := h.operation op fun p => careful.2 op p rfl
      rw [advance.replied, Reply.isPanic_shift, answers.isPanic]
  | access access => exact s.isPanic_access access

/-- No request of an honest program panics or runs for ever, and neither does a walk over the
list. -/
theorem progress_of_honest (fresh : heap.Fresh) (run : Reaches Honest (start heap) s) :
    (∀ request, s.Honest request → (s.reply request).isPanic = false) ∧
      ∃ bs, s.allocator.Finite bs := by
  obtain ⟨l, sound⟩ := sound_of_honest fresh run
  have capacity : s.allocator.heap.capacity = heap.capacity :=
    run.capacity ⟨_, Sound.start fresh⟩ fun _ _ _ => Sound.careful_of_honest
  have few : s.allocator.Countable := by
    have size := fresh.capacity_le
    exact sound.realizes.countable_of_small (by omega)
  exact ⟨fun request honest => sound.isPanic (sound.careful_of_honest honest),
    l.blocks, sound.realizes.finite few⟩

/-- The break is moved down by as much as a word can say, after words were stored that look like a
header. -/
theorem progress_after_writes :
    ((writer [64, 64, 32, 1]).reply (.operation (.sbrk (-2 ^ 63)))).isPanic = false ∧
      ∃ bs, (writer [64, 64, 32, 1]).allocator.Finite bs := by
  obtain ⟨answered, finite⟩ :=
    progress_of_honest mebibyte_fresh (@writer_reached [64, 64, 32, 1] (by decide))
  exact ⟨answered _ (honest_of_no_pointer rfl), finite⟩

end Client

end Confine
