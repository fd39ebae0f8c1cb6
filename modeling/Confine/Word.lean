/-! # Machine words

Sizes, offsets and addresses are natural numbers below `2 ^ 64`. An operation of this file says what
happens where a sum, a multiple or a difference leaves that range, so that no caller wraps by
accident.
-/

namespace Confine

-- the instance of a monoid would be found first where one is imported, and a power be another term
@[default_instance 10001]
instance (priority := high) powNat : Pow Nat Nat :=
  instPowNat

namespace Word

/-- The number of values of a machine word. -/
def limit : Nat := 2 ^ 64

/-- The largest word. -/
def max : Nat := limit - 1

/-- The number of values of a count, which has 32 bits, one of them for a sign that it never takes. -/
def countLimit : Nat := 2 ^ 31

/-- The sum, if it is a word. -/
def add? (a b : Nat) : Option Nat :=
  if a + b < limit then some (a + b) else none

/-- The least multiple of `unit` that is at least `n`. -/
def roundUp (n unit : Nat) : Nat :=
  (n + unit - 1) / unit * unit

/-- `roundUp`, if it is a word. -/
def roundUp? (n unit : Nat) : Option Nat :=
  if roundUp n unit < limit then some (roundUp n unit) else none

/-- The product of two words, cut to a word. -/
def mulWrapping (a b : Nat) : Nat :=
  a * b % limit

/-- The difference of two words, taken around zero. -/
def subWrapping (a b : Nat) : Nat :=
  (a + limit - b % limit) % limit

/-- The word that stands for an integer, as a pointer moved by a signed distance. -/
def ofInt (n : Int) : Nat :=
  (n % limit).toNat

/-- Whether the word is `2 ^ k` for some `k`; zero is none. -/
def isPowerOfTwo (n : Nat) : Bool :=
  n != 0 && 2 ^ n.log2 == n

theorem add?_eq_some_iff {a b c : Nat} : add? a b = some c ↔ a + b = c ∧ c < limit := by
  unfold add?
  split
  · constructor
    · intro h
      cases h
      exact ⟨rfl, by assumption⟩
    · rintro ⟨rfl, _⟩
      rfl
  · constructor
    · intro h
      cases h
    · rintro ⟨rfl, h⟩
      contradiction

theorem le_roundUp {n unit : Nat} (h : 0 < unit) : n ≤ roundUp n unit := by
  have := Nat.div_add_mod (n + unit - 1) unit
  have := Nat.mod_lt (n + unit - 1) h
  have : (n + unit - 1) / unit * unit = unit * ((n + unit - 1) / unit) := Nat.mul_comm ..
  simp only [roundUp]
  omega

theorem roundUp_lt {n unit : Nat} (h : 0 < unit) : roundUp n unit < n + unit := by
  have := Nat.div_mul_le_self (n + unit - 1) unit
  simp only [roundUp]
  omega

theorem dvd_roundUp (n unit : Nat) : unit ∣ roundUp n unit :=
  Nat.dvd_mul_left ..

theorem isPowerOfTwo_iff {n : Nat} : isPowerOfTwo n = true ↔ n.isPowerOfTwo := by
  simp only [isPowerOfTwo, Bool.and_eq_true, bne_iff_ne, beq_iff_eq]
  constructor
  · rintro ⟨_, h⟩
    exact ⟨_, h.symm⟩
  · rintro ⟨k, rfl⟩
    exact ⟨Nat.ne_of_gt (Nat.two_pow_pos k), by rw [Nat.log2_two_pow]⟩

end Word

end Confine
