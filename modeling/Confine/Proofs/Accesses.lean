import Confine.Proofs.ByteStore
import Confine.Proofs.Client
import Confine.Proofs.Pointers

/-! # Accesses at any offset

Where a value does not fit, reading and writing it has no result.  There is one gap: at an offset so
far up that its address is no word, although the offset behind the value is one, the access panics.
The search for a live block reads where the bytes of the heap tell it to, so the gap is its only way
to panic as well, in a heap whose break lies in its region.  Beyond the region an access that fits
below the break is stopped by the assertion on its address.
-/

namespace Confine

namespace Heap

variable {h : Heap} {c : Cell}

/-- Unless the offset overshoots or strays, an access there has a result exactly if the value fits. -/
structure Guards (h : Heap) (c : Cell) (o : Nat) : Prop where
  read : h.read c o =
    if h.Overshoots c o then .error .addOverflow
    else if h.Strays c o then .error .offsetBeyondCapacity
    else .ok (if h.Fits c o then some (h.lanesAt c o) else none)
  write : ∀ values, h.write c o values =
    if h.Overshoots c o then .error .addOverflow
    else if h.Strays c o then .error .offsetBeyondCapacity
    else .ok (if h.Fits c o then
      some { h with memory := h.memory.storeNumbers o c.width (values.take c.lanes) } else none)
  /-- In a region that starts at a multiple of a word, it is the offset that has to be aligned. -/
  aligned : 8 ∣ h.base → (h.Fits c o ↔ c.width ∣ o ∧ o + c.size ≤ h.brk)
  /-- Nothing strays as long as the break lies in the region, where the heap keeps it. -/
  inside : h.brk ≤ h.capacity → ¬h.Strays c o

theorem guards (small : h.brk < Word.limit) (known : c ∈ Cell.types) (o : Nat) : h.Guards c o where
  read := reaches_bind small c o (h.lanesAt c o)
  write _ := reaches_bind small c o _
  aligned base := fits_iff base known
  inside := not_strays_of_le

end Heap

namespace Allocator

variable {a : Allocator} {o p : Nat}

/-- There is a header in front of the address, at this offset below the break. -/
structure Heads (a : Allocator) (p o : Nat) : Prop where
  address : Word.subWrapping p 32 = a.heap.base + o
  grid : 32 ∣ o
  fits : a.heap.Fits .fourWords o

/-- The header in front of the address names a predecessor that is out of reach. -/
def Derails (a : Allocator) (p : Nat) : Prop :=
  ∃ o, a.Heads p o ∧ o ≤ a.heap.capacity ∧ a.Overflows o

/-- The header in front of the address, or else the one of the predecessor that it names, lies
beyond the region. -/
def Strays (a : Allocator) (p : Nat) : Prop :=
  ∃ o, a.Heads p o ∧ (a.heap.capacity < o ∨ ∃ q, (a.heap.headerAt o).prev = some q ∧
    ¬a.heap.Overshoots .fourWords q ∧ a.heap.Strays .fourWords q)

/-- The search for the block of an address changes nothing.  Unless a header derails it or lies
beyond the region, it finds a block or reports the address. -/
structure Searches (a : Allocator) (p : Nat) : Prop where
  derailed : a.Derails p → liveBlock p a = (.error (.panic .addOverflow), a)
  strayed : a.Strays p → liveBlock p a = (.error (.panic .offsetBeyondCapacity), a)
  answered : ¬a.Derails p → ¬a.Strays p → (∃ o, liveBlock p a = (.ok o, a)) ∨ a.Refused p
  inside : a.heap.brk ≤ a.heap.capacity → ¬a.Strays p

section Words

variable (small : a.heap.brk < Word.limit)

include small

theorem isLinked_of_reached {header : Header}
    (reached : ∀ q, header.prev = some q →
      ¬a.heap.Overshoots .fourWords q ∧ ¬a.heap.Strays .fourWords q) (o : Nat) :
    ∃ linked, a.isLinked o header = .ok linked := by
  cases named : header.prev with
  | none =>
      simp only [isLinked, named]
      exact ⟨_, rfl⟩
  | some q =>
      obtain ⟨straight, inside⟩ := reached q named
      simp only [isLinked, named, Heap.header?_eq_ite small, if_neg straight, if_neg inside]
      by_cases fits : a.heap.Fits .fourWords q
      · simp only [if_pos fits]
        exact ⟨_, rfl⟩
      · simp only [if_neg fits]
        exact ⟨_, rfl⟩

theorem liveBlock_of_derails (derails : a.Derails p) :
    liveBlock p a = (.error (.panic .addOverflow), a) := by
  obtain ⟨o, heads, inRegion, q, named, past⟩ := derails
  rw [liveBlock_of_fits small heads.address heads.grid heads.fits inRegion,
    isLinked_of_overshoots small named past]
  exact bind_error (run_orPanic_error _)

theorem liveBlock_strays (strays : a.Strays p) :
    liveBlock p a = (.error (.panic .offsetBeyondCapacity), a) := by
  obtain ⟨o, heads, strays⟩ := strays
  by_cases beyond : a.heap.capacity < o
  · exact liveBlock_of_strays small heads.address heads.grid ⟨heads.fits, beyond⟩
  · obtain ⟨q, named, straight, strays⟩ := strays.resolve_left beyond
    rw [liveBlock_of_fits small heads.address heads.grid heads.fits (Nat.le_of_not_lt beyond),
      isLinked_of_strays small named straight strays]
    exact bind_error (run_orPanic_error _)

theorem liveBlock_answers (straight : ¬a.Derails p) (inside : ¬a.Strays p) :
    (∃ o, liveBlock p a = (.ok o, a)) ∨ a.Refused p := by
  by_cases headed : ∃ o, a.Heads p o
  · obtain ⟨o, heads⟩ := headed
    have inRegion : o ≤ a.heap.capacity :=
      Nat.le_of_not_lt fun beyond => inside ⟨o, heads, .inl beyond⟩
    have reached : ∀ q, (a.heap.headerAt o).prev = some q →
        ¬a.heap.Overshoots .fourWords q ∧ ¬a.heap.Strays .fourWords q := by
      intro q named
      have low : ¬a.heap.Overshoots .fourWords q :=
        fun past => straight ⟨o, heads, inRegion, q, named, past⟩
      exact ⟨low, fun strays => inside ⟨o, heads, .inr ⟨q, named, low, strays⟩⟩⟩
    obtain ⟨linked, answer⟩ := isLinked_of_reached small reached o
    rw [Refused, liveBlock_of_fits small heads.address heads.grid heads.fits inRegion, answer,
      orPanic_ok_bind]
    split
    · exact .inl ⟨o, run_pure o⟩
    · exact .inr (run_fail _)
  · exact .inr (refused_of_not_fits small fun o address grid fits =>
      headed ⟨o, address, grid, fits⟩)

theorem searches (p : Nat) : a.Searches p where
  derailed := liveBlock_of_derails small
  strayed := liveBlock_strays small
  answered := liveBlock_answers small
  inside brk_le := by
    rintro ⟨o, heads, beyond | ⟨q, -, -, strays⟩⟩
    · exact Heap.not_strays_of_le brk_le ⟨heads.fits, beyond⟩
    · exact Heap.not_strays_of_le brk_le strays

end Words

/-- Accesses and searches panic in the one gap that the checks leave and beyond the region, and have
an answer everywhere else. -/
theorem accesses_guarded (small : a.heap.brk < Word.limit) :
    (∀ c ∈ Cell.types, ∀ o, a.heap.Guards c o) ∧ ∀ p, a.Searches p :=
  ⟨fun _ known o => Heap.guards small known o, searches small⟩

end Allocator

namespace Client

/-- A word at the end of the words can neither be read nor written, but stops the heap instead, and
so does the search for a block if a program stores such an offset where a header would name its
predecessor. -/
theorem accesses_unguarded_at_end :
    Heap.read mebibyte .bits64 (2 ^ 64 - 2 ^ 21) = .error .addOverflow ∧
      Heap.read mebibyte .bits8 (2 ^ 64 - 2) = .error .addOverflow ∧
      (∃ cause, Heap.write mebibyte .bits64 (2 ^ 64 - 2 ^ 21) [1] = .error cause) ∧
      Reaches Honest (start mebibyte) (writer [2 ^ 64 - 64, 0, 0, 0]) ∧
      (Allocator.liveBlock (2 ^ 32 + 96) (writer [2 ^ 64 - 64, 0, 0, 0]).allocator).1 =
        .error (.panic .addOverflow) := by
  have write : Heap.write mebibyte .bits64 (2 ^ 64 - 2 ^ 21) [1] = .error .addOverflow := rfl
  exact ⟨by decide +kernel, by decide +kernel, ⟨_, write⟩, writer_reached (by decide),
    by decide +kernel⟩

/-- A heap in which the program stored such an offset. -/
theorem accesses_guarded_forged :
    (writer [2 ^ 64 - 64, 0, 0, 0]).allocator.heap.brk < Word.limit ∧
      (∀ c ∈ Cell.types, ∀ o, (writer [2 ^ 64 - 64, 0, 0, 0]).allocator.heap.Guards c o) ∧
      ∀ p, (writer [2 ^ 64 - 64, 0, 0, 0]).allocator.Searches p := by
  have small : (writer [2 ^ 64 - 64, 0, 0, 0]).allocator.heap.brk < Word.limit := by decide +kernel
  exact ⟨small, Allocator.accesses_guarded small⟩

end Client

end Confine
