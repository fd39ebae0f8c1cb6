import Confine.Proofs.Layout.Answers

/-! # Moving a heap

A heap at another address answers every operation with the same offsets.  Only the gap in front of
an aligned payload depends on the address, and no further than up to a multiple of the alignment.
-/

namespace Confine

namespace Word

/-- The distance to the next multiple is the same from either base. -/
def SameGaps (base base' alignment : Nat) : Prop :=
  ∀ n, roundUp (base' + n) alignment - (base' + n) = roundUp (base + n) alignment - (base + n)

variable {base base' alignment : Nat}

theorem roundUp_add (positive : 0 < alignment) (grid : alignment ∣ base) (n : Nat) :
    roundUp (base + n) alignment = base + roundUp n alignment := by
  obtain ⟨k, rfl⟩ := grid
  have sum : alignment * k + n + alignment - 1 = n + alignment - 1 + alignment * k := by omega
  rw [roundUp, sum, Nat.add_mul_div_left _ _ positive, Nat.add_mul, roundUp, Nat.add_comm,
    Nat.mul_comm k]

theorem sameGaps_of_dvd (positive : 0 < alignment) (grid : alignment ∣ base)
    (grid' : alignment ∣ base') : SameGaps base base' alignment := by
  intro n
  rw [roundUp_add positive grid, roundUp_add positive grid', Nat.add_sub_add_left,
    Nat.add_sub_add_left]

theorem dvd_of_isPowerOfTwo_of_le {k : Nat} (power : isPowerOfTwo alignment = true)
    (small : alignment ≤ 2 ^ k) : alignment ∣ 2 ^ k := by
  obtain ⟨m, rfl⟩ := isPowerOfTwo_iff.mp power
  exact Nat.pow_dvd_pow 2 ((Nat.pow_le_pow_iff_right (by decide)).mp small)

end Word

open Block

namespace Layout

variable {l : Layout} {base : Nat}

def rebase (base : Nat) (l : Layout) : Layout :=
  { l with base }

def rebased {α : Type} (base : Nat) (result : α × Layout) : α × Layout :=
  (result.1, result.2.rebase base)

theorem free_rebase (l : Layout) (offset : Nat) :
    (l.rebase base).free offset = (l.free offset).rebase base := rfl

theorem find_rebase (l : Layout) (required : Nat) :
    (l.rebase base).find required = (l.find required).map (rebased base) := by
  have grown : (l.rebase base).grow required = (l.grow required).map (rebase base) := by
    by_cases room : Word.roundUp l.brk 32 + l.growth required ≤ l.capacity
    · have grown : l.grow required = some _ := if_pos room
      rw [grown]
      exact if_pos room
    · have full : l.grow required = none := if_neg room
      rw [full]
      exact if_neg room
  have blocks : (l.rebase base).blocks = l.blocks := rfl
  simp only [find, blocks, grown]
  cases l.blocks.find? (serves required) with
  | some b => rfl
  | none =>
      simp only [Option.map_map]
      rfl

theorem take_rebase (l : Layout) (required : Nat) :
    (l.rebase base).take required = (l.take required).map (rebased base) := by
  simp only [take, find_rebase]
  cases l.find required with
  | none => rfl
  | some result => rfl

theorem allocate_rebase (l : Layout) (size : Nat) :
    (l.rebase base).allocate size = (l.allocate size).map (rebased base) := by
  simp only [allocate]
  cases Allocator.requiredSize size with
  | none => rfl
  | some required => exact take_rebase l required

theorem allocateAligned_rebase {alignment : Nat} (same : Word.SameGaps l.base base alignment)
    (size : Nat) :
    (l.rebase base).allocateAligned alignment size =
      (l.allocateAligned alignment size).map (rebased base) := by
  simp only [allocateAligned, take_rebase]
  cases Allocator.requiredSize size with
  | none => rfl
  | some required =>
      cases Word.add? size alignment >>= Allocator.requiredSize with
      | none => rfl
      | some padded =>
          simp only [Option.bind_eq_bind, Option.bind_some]
          cases l.take padded with
          | none => rfl
          | some result =>
              obtain ⟨o, taken⟩ := result
              have gap : Word.roundUp ((l.rebase base).base + (o + 32)) alignment -
                  ((l.rebase base).base + (o + 32)) = _ := same (o + 32)
              simp only [Option.map_some, Option.bind_some, rebased, gap]
              rfl

theorem granted_rebase (l : Layout) (attempt : Option (Nat × Layout)) :
    (l.rebase base).granted (attempt.map (rebased base)) = rebased base (l.granted attempt) := by
  cases attempt with
  | none => rfl
  | some result => rfl

/-- An operation is answered alike at another address that leaves the same gaps. -/
theorem answer_rebase (op : Operation (Option Nat))
    (same : ∀ alignment size, op = .allocateAligned alignment size →
      Word.isPowerOfTwo alignment = true → Word.SameGaps l.base base alignment) :
    (l.rebase base).answer op = rebased base (l.answer op) := by
  cases op with
  | allocate size => simp only [answer, allocate_rebase, granted_rebase]
  | zeroAllocate count size => simp only [answer, allocate_rebase, granted_rebase]
  | allocateAligned alignment size =>
      simp only [answer, allocate_rebase, granted_rebase]
      cases power : Word.isPowerOfTwo alignment with
      | false => rfl
      | true =>
          have gaps := same alignment size rfl power
          rw [allocateAligned_rebase gaps, granted_rebase]
          simp only [Bool.not_true, Bool.false_eq_true, if_false]
          split <;> rfl
  | resize pointer size =>
      cases pointer with
      | none => simp only [answer, allocate_rebase, granted_rebase]
      | some o =>
          simp only [answer, allocate_rebase, Option.map_map, free_rebase]
          split
          · rfl
          · rw [← granted_rebase, Option.map_map]
            rfl
  | sbrk increment =>
      have moved : (l.rebase base).moveBreak increment =
          (l.moveBreak increment).map (rebase base) := by
        by_cases room : (increment < 0 → (l.floor : Int) ≤ l.brk + increment) ∧
            (l.brk : Int) + increment ≤ l.capacity
        · have moved : l.moveBreak increment = some _ := if_pos room
          rw [moved]
          exact if_pos room
        · have refused : l.moveBreak increment = none := if_neg room
          rw [refused]
          exact if_neg room
      simp only [answer, moved]
      cases l.moveBreak increment with
      | none => rfl
      | some l' => rfl
  | free pointer => cases pointer <;> rfl
  | usableSize pointer => cases pointer <;> rfl

theorem base_answer (l : Layout) (op : Operation (Option Nat)) : (l.answer op).2.base = l.base := by
  have fixed : (l.rebase l.base).answer op = rebased l.base (l.answer op) :=
    answer_rebase op fun _ _ _ _ _ => rfl
  exact congrArg (fun result => result.2.base) fixed

end Layout

end Confine
