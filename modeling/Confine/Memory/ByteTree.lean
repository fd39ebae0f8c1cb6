import Confine.Word

/-! # Trees of bytes

A range of `2 ^ height` bytes as a binary tree, whose leaves stand for whole aligned parts that hold
one byte throughout. `get` is the view: `get_fill` and `get_overlay` say what each way of writing
does to it, and nothing else about the tree is ever needed.
-/

namespace Confine

/-- A tree over `2 ^ height` bytes. The height is known from outside. -/
inductive ByteTree where
  /-- Every byte of the range is `byte`. -/
  | uniform (byte : UInt8)
  /-- The lower and the upper half of the range. -/
  | halves (low high : ByteTree)
  deriving Repr

namespace ByteTree

/-- The lower half of the range. -/
def low : ByteTree → ByteTree
  | uniform b => uniform b
  | halves l _ => l

/-- The upper half of the range. -/
def high : ByteTree → ByteTree
  | uniform b => uniform b
  | halves _ r => r

/-- `halves`, except that two uniform halves of one byte become one leaf. -/
def join : ByteTree → ByteTree → ByteTree
  | uniform a, uniform b => if a = b then uniform a else halves (uniform a) (uniform b)
  | l, r => halves l r

/-- The byte at an offset of a tree over `span` bytes. -/
def get : ByteTree → (span offset : Nat) → UInt8
  | uniform b, _, _ => b
  | halves l r, span, i =>
    let half := span / 2
    if i < half then l.get half i else r.get half (i - half)

/-- Set the bytes from `start` up to `start + length` to `b`. -/
def fill : Nat → ByteTree → (start length : Nat) → UInt8 → ByteTree
  | 0, t, start, length, b => if start = 0 ∧ 0 < length then uniform b else t
  | h + 1, t, start, length, b =>
    if length = 0 then t
    else if start = 0 ∧ 2 ^ (h + 1) ≤ length then uniform b
    else
      let half := 2 ^ h
      join
        (if start < half then fill h t.low start length b else t.low)
        (if half < start + length then
          fill h t.high (start - half) (start + length - max start half) b
        else t.high)

/-- Set the byte at `start + i` to `source i` for each `i` below `length`. -/
def overlay : Nat → ByteTree → (start length : Nat) → (Nat → UInt8) → ByteTree
  | 0, t, start, length, source => if start = 0 ∧ 0 < length then uniform (source 0) else t
  | h + 1, t, start, length, source =>
    if length = 0 then t
    else
      let half := 2 ^ h
      join
        (if start < half then overlay h t.low start length source else t.low)
        (if half < start + length then
          overlay h t.high (start - half) (start + length - max start half)
            (fun i => source (i + (max start half - start)))
        else t.high)

theorem half_two_pow (h : Nat) : 2 ^ (h + 1) / 2 = 2 ^ h := by
  omega

theorem get_succ (h : Nat) (t : ByteTree) (i : Nat) :
    t.get (2 ^ (h + 1)) i =
      if i < 2 ^ h then t.low.get (2 ^ h) i else t.high.get (2 ^ h) (i - 2 ^ h) := by
  cases t with
  | uniform b => simp [get, low, high]
  | halves l r => simp [get, low, high, half_two_pow]

@[simp] theorem get_join (h : Nat) (l r : ByteTree) (i : Nat) :
    (join l r).get (2 ^ (h + 1)) i =
      if i < 2 ^ h then l.get (2 ^ h) i else r.get (2 ^ h) (i - 2 ^ h) := by
  unfold join
  split
  · split
    · next heq => subst heq; simp [get]
    · simp [get, half_two_pow]
  · simp [get, half_two_pow]

theorem get_fill (h : Nat) (t : ByteTree) (start length : Nat) (b : UInt8) (i : Nat)
    (hi : i < 2 ^ h) :
    (fill h t start length b).get (2 ^ h) i =
      if start ≤ i ∧ i < start + length then b else t.get (2 ^ h) i := by
  induction h generalizing t start length i with
  | zero =>
    have : i = 0 := by omega
    subst this
    by_cases hc : start = 0 ∧ 0 < length
    · rw [fill, if_pos hc, if_pos (by omega)]
      simp [get]
    · rw [fill, if_neg hc, if_neg (by omega)]
  | succ h ih =>
    have hpow : 2 ^ (h + 1) = 2 ^ h + 2 ^ h := by omega
    rw [fill]
    split
    · rw [if_neg (by omega)]
    split
    · rw [if_pos (by omega)]
      simp [get]
    simp only [get_join, get_succ h t]
    by_cases hlow : i < 2 ^ h
    · simp only [if_pos hlow]
      split
      · rw [ih _ _ _ _ hlow]
      · rw [if_neg (by omega)]
    · simp only [if_neg hlow]
      split
      · rw [ih _ _ _ _ (by omega)]
        by_cases hin : start ≤ i ∧ i < start + length
        · rw [if_pos hin, if_pos (by omega)]
        · rw [if_neg hin, if_neg (by omega)]
      · rw [if_neg (by omega)]

theorem get_overlay (h : Nat) (t : ByteTree) (start length : Nat) (source : Nat → UInt8) (i : Nat)
    (hi : i < 2 ^ h) :
    (overlay h t start length source).get (2 ^ h) i =
      if start ≤ i ∧ i < start + length then source (i - start) else t.get (2 ^ h) i := by
  induction h generalizing t start length source i with
  | zero =>
    have : i = 0 := by omega
    subst this
    by_cases hc : start = 0 ∧ 0 < length
    · rw [overlay, if_pos hc, if_pos (by omega), Nat.zero_sub]
      simp [get]
    · rw [overlay, if_neg hc, if_neg (by omega)]
  | succ h ih =>
    have hpow : 2 ^ (h + 1) = 2 ^ h + 2 ^ h := by omega
    rw [overlay]
    split
    · rw [if_neg (by omega)]
    simp only [get_join, get_succ h t]
    by_cases hlow : i < 2 ^ h
    · simp only [if_pos hlow]
      split
      · rw [ih _ _ _ _ _ hlow]
      · rw [if_neg (by omega)]
    · simp only [if_neg hlow]
      split
      · rw [ih _ _ _ _ _ (by omega)]
        by_cases hin : start ≤ i ∧ i < start + length
        · rw [if_pos hin, if_pos (by omega)]
          congr 1
          omega
        · rw [if_neg hin, if_neg (by omega)]
      · rw [if_neg (by omega)]

end ByteTree

end Confine
