import Confine.Memory.ByteTree

/-! # Sparse byte memory

A region of bytes that is zero until it is written. The bytes are the view, by `get`; numbers are
stored in little-endian order, and reading one back gives what was stored, cut to its width.
-/

namespace Confine

/-- A memory of `2 ^ height` bytes. -/
structure Memory where
  height : Nat
  tree : ByteTree
  deriving Repr

namespace Memory

/-- A memory of at least `size` bytes, all of them zero. -/
def zeros (size : Nat) : Memory :=
  ⟨size.log2 + 1, .uniform 0⟩

/-- The byte at an offset; zero outside of the memory. -/
def get (m : Memory) (i : Nat) : UInt8 :=
  let span := 2 ^ m.height
  if i < span then m.tree.get span i else 0

/-- Set `length` bytes from `start` to one value. What would lie outside of the memory is dropped.
-/
def fill (m : Memory) (start length : Nat) (byte : UInt8) : Memory :=
  { m with tree := m.tree.fill m.height start length byte }

/-- Set the byte at `start + i` to `source i` for each `i` below `length`. -/
def overlay (m : Memory) (start length : Nat) (source : Nat → UInt8) : Memory :=
  { m with tree := m.tree.overlay m.height start length source }

/-- Store bytes one after another. -/
def store (m : Memory) (start : Nat) (bytes : Array UInt8) : Memory :=
  m.overlay start bytes.size fun i => bytes.getD i 0

/-- Copy `length` bytes, all of them read before the first is written. -/
def copy (m : Memory) (source target length : Nat) : Memory :=
  m.overlay target length fun i => m.get (source + i)

/-- The bytes of a range. -/
def load (m : Memory) (start length : Nat) : List UInt8 :=
  (List.range length).map fun i => m.get (start + i)

/-- The little-endian number formed by `width` bytes. -/
def number (m : Memory) (start : Nat) : (width : Nat) → Nat
  | 0 => 0
  | width + 1 => (m.get start).toNat + 256 * m.number (start + 1) width

/-- Byte `i` of a number written in little-endian order. -/
def littleEndian (value i : Nat) : UInt8 :=
  UInt8.ofNat (value / 256 ^ i)

/-- Store a number in `width` little-endian bytes. -/
def storeNumber (m : Memory) (start width value : Nat) : Memory :=
  m.overlay start width (littleEndian value)

/-- Store numbers one after another, `width` bytes each. -/
def storeNumbers (m : Memory) (start width : Nat) : List Nat → Memory
  | [] => m
  | value :: values => (m.storeNumber start width value).storeNumbers (start + width) width values

@[simp] theorem height_fill (m : Memory) (start length : Nat) (byte : UInt8) :
    (m.fill start length byte).height = m.height := rfl

@[simp] theorem height_overlay (m : Memory) (start length : Nat) (source : Nat → UInt8) :
    (m.overlay start length source).height = m.height := rfl

@[simp] theorem get_zeros (size i : Nat) : (zeros size).get i = 0 := by
  simp [zeros, get, ByteTree.get]

theorem get_fill (m : Memory) (start length : Nat) (byte : UInt8) (i : Nat)
    (hi : i < 2 ^ m.height) :
    (m.fill start length byte).get i =
      if start ≤ i ∧ i < start + length then byte else m.get i := by
  simp only [get, fill, if_pos hi, ByteTree.get_fill _ _ _ _ _ _ hi]

theorem get_overlay (m : Memory) (start length : Nat) (source : Nat → UInt8) (i : Nat)
    (hi : i < 2 ^ m.height) :
    (m.overlay start length source).get i =
      if start ≤ i ∧ i < start + length then source (i - start) else m.get i := by
  simp only [get, overlay, if_pos hi, ByteTree.get_overlay _ _ _ _ _ _ hi]

/-- A memory made for a size holds every offset up to and including that size. -/
theorem lt_height_zeros (size : Nat) : size < 2 ^ (zeros size).height :=
  Nat.lt_log2_self

theorem number_lt (m : Memory) (start width : Nat) : m.number start width < 256 ^ width := by
  induction width generalizing start with
  | zero => simp [number]
  | succ width ih =>
    have := ih (start + 1)
    have := (m.get start).toNat_lt
    rw [number, Nat.pow_succ]
    omega

/-- A number depends only on the bytes that it is made of. -/
theorem number_congr {m n : Memory} {start width : Nat}
    (h : ∀ i, start ≤ i → i < start + width → m.get i = n.get i) :
    m.number start width = n.number start width := by
  induction width generalizing start with
  | zero => rfl
  | succ width ih =>
    rw [number, number, h start (by omega) (by omega),
      ih fun i h₁ h₂ => h i (by omega) (by omega)]

/-- Storing a number and reading it back cuts it to the width. -/
theorem number_storeNumber (m : Memory) (start width value : Nat)
    (h : start + width ≤ 2 ^ m.height) :
    (m.storeNumber start width value).number start width = value % 256 ^ width := by
  suffices ∀ k n : Nat, k + n = width →
      (m.storeNumber start width value).number (start + k) n = value / 256 ^ k % 256 ^ n by
    simpa using this 0 width (by omega)
  intro k n hk
  induction n generalizing k with
  | zero => simp [number, Nat.mod_one]
  | succ n ih =>
    have hbyte : (m.storeNumber start width value).get (start + k) = littleEndian value k := by
      rw [storeNumber, get_overlay _ _ _ _ _ (by omega), if_pos (by omega)]
      congr 1
      omega
    have hrest := ih (k + 1) (by omega)
    rw [number, hbyte, Nat.add_assoc, hrest, littleEndian, Nat.pow_succ 256 k, Nat.pow_succ 256 n,
      ← Nat.div_div_eq_div_mul, Nat.mul_comm (256 ^ n) 256, Nat.mod_mul]
    simp

end Memory

end Confine
