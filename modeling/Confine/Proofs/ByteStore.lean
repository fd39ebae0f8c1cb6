import Confine.Heap.Request
import Confine.Proofs.HeaderCell
import Mathlib.Data.Nat.Digits.Defs

/-! # The heap region stores bytes

Whatever is written to a heap region and however its break moves, a position holds the byte that the
last write over it put there.  Values of all types are read and written as little-endian bytes, so
that values of different widths may overlap.
-/

namespace Confine

namespace Memory

variable (m : Memory) (start width : Nat)

theorem number_eq_ofDigits :
    m.number start width = Nat.ofDigits 256 ((m.load start width).map UInt8.toNat) := by
  induction width generalizing start with
  | zero => rfl
  | succ width ih =>
      have next (i : Nat) : start + 1 + i = start + (i + 1) := by omega
      rw [number, ih, load, load, List.range_succ_eq_map]
      simp only [next, List.map_cons, List.map_map, Function.comp_def, Nat.succ_eq_add_one,
        Nat.ofDigits_cons, Nat.add_zero]

theorem get_storeNumbers (values : List Nat) {i : Nat}
    (fits : start + width * values.length ≤ 2 ^ m.height) (low : start ≤ i)
    (high : i < start + width * values.length) :
    (m.storeNumbers start width values).get i =
      littleEndian (values.getD ((i - start) / width) 0) ((i - start) % width) := by
  induction values generalizing m start with
  | nil => simp at high; omega
  | cons value values ih =>
      simp only [List.length_cons, Nat.mul_add, Nat.mul_one] at fits high
      rw [storeNumbers]
      by_cases first : i < start + width
      · rw [get_storeNumbers_of_outside _ _ _ _ (.inl first), storeNumber,
          get_overlay_of_le m _ (by omega), if_pos ⟨low, first⟩,
          Nat.div_eq_of_lt (by omega : i - start < width),
          Nat.mod_eq_of_lt (by omega : i - start < width), List.getD_cons_zero]
      · -- The rest is where it would be if it started one value earlier.
        obtain ⟨k, rfl⟩ : ∃ k, i = start + width + k := ⟨i - (start + width), by omega⟩
        have positive : 0 < width := Nat.pos_of_ne_zero fun zero => by subst zero; omega
        have before : start + width + k - start = k + width := by omega
        rw [ih (m.storeNumber start width value) (start + width)
          (by simp only [height_storeNumber]; omega) (by omega) (by omega), before,
          Nat.add_div_right k positive, Nat.add_mod_right, List.getD_cons_succ,
          Nat.add_sub_cancel_left]

end Memory

namespace Cell

def types : List Cell :=
  [bits8, bits16, bits32, bits64, fourWords]

theorem width_dvd {c : Cell} (known : c ∈ types) : c.width ∣ 8 := by
  simp only [types, List.mem_cons, List.not_mem_nil, or_false] at known
  rcases known with rfl | rfl | rfl | rfl | rfl <;> decide

end Cell

namespace Heap

/-- The request names a type of values and an offset whose address is a word, and a value to be
written is one of its type. -/
def Request.Typed (base : Nat) : Request → Prop
  | .read c o => c ∈ Cell.types ∧ base + o < Word.limit
  | .write c o values => c ∈ Cell.types ∧ base + o < Word.limit ∧ values.length = c.lanes
  | _ => True

/-- The byte that a write puts at a position. -/
def Request.byteAt? : Request → Nat → Option UInt8
  | .write c o values, i =>
    if o ≤ i ∧ i < o + c.size then
      some (Memory.littleEndian (values.getD ((i - o) / c.width) 0) ((i - o) % c.width))
    else none
  | _, _ => none

/-- A sequence of requests with their answers, the last one first, that a heap gave before it became
another. -/
inductive Runs (start : Heap) : List (Request × Reply) → Heap → Prop
  | refl : Runs start [] start
  | step {log : List (Request × Reply)} {h : Heap} (results : StepResults) (request : Request)
      (run : Runs start log h) (typed : request.Typed start.base) :
      Runs start ((request, (h.perform results request).1) :: log) (h.perform results request).2

/-- The byte that the last successful write over a position stored there, zero if there was none.
-/
def lastStored : List (Request × Reply) → Nat → UInt8
  | [], _ => 0
  | (request, .stored true) :: log, i => (request.byteAt? i).getD (lastStored log i)
  | _ :: log, i => lastStored log i

/-- The value that the bytes stored last form at an offset. -/
def storedLanes (log : List (Request × Reply)) (c : Cell) (o : Nat) : List Nat :=
  (List.range c.lanes).map fun lane =>
    Nat.ofDigits 256 ((List.range c.width).map fun i =>
      (lastStored log (o + lane * c.width + i)).toNat)

/-- The heap stores bytes, and these are the ones that were written last. -/
structure ByteStore (log : List (Request × Reply)) (h : Heap) : Prop where
  brk_le : h.brk ≤ h.capacity
  extend : ∀ increment : Int, h.extend increment =
    if 0 ≤ h.brk + increment ∧ h.brk + increment ≤ h.capacity then
      .ok (h.brk, { h with brk := (h.brk + increment).toNat })
    else .error .outOfMemory
  read : ∀ c ∈ Cell.types, ∀ o, h.base + o < Word.limit → h.read c o =
    .ok (if c.width ∣ o ∧ o + c.size ≤ h.brk then some (storedLanes log c o) else none)
  /-- A write that fits changes the bytes of its value and no others. -/
  write : ∀ c ∈ Cell.types, ∀ o values, h.base + o < Word.limit → values.length = c.lanes →
    if c.width ∣ o ∧ o + c.size ≤ h.brk then
      ∃ memory, h.write c o values = .ok (some { h with memory }) ∧
        ∀ i, memory.get i = ((Request.write c o values).byteAt? i).getD (h.memory.get i)
    else h.write c o values = .ok none

section Cells

variable {h : Heap} {c : Cell} {o : Nat}

/-- In a region that starts at a multiple of a machine word, it is the offset that has to be aligned.
-/
theorem fits_iff (aligned : 8 ∣ h.base) (known : c ∈ Cell.types) :
    h.Fits c o ↔ c.width ∣ o ∧ o + c.size ≤ h.brk := by
  rw [Fits, Nat.dvd_add_right (Nat.dvd_trans (Cell.width_dvd known) aligned), and_comm]

section Low

variable (aligned : 8 ∣ h.base) (brk_le : h.brk ≤ h.capacity) (small : h.brk < Word.limit)
  (known : c ∈ Cell.types) (low : h.base + o < Word.limit)

include aligned brk_le small known low

theorem reaches_bind_of_low {α : Type} (result : α) :
    (do if ← h.reaches c o then return some result else return none : Except Panic (Option α)) =
      .ok (if c.width ∣ o ∧ o + c.size ≤ h.brk then some result else none) := by
  rw [reaches_bind small, if_neg fun past => Nat.not_le_of_lt low past.2,
    if_neg (not_strays_of_le brk_le)]
  exact congrArg Except.ok (if_congr (fits_iff aligned known) rfl rfl)

theorem read_of_low : h.read c o =
    .ok (if c.width ∣ o ∧ o + c.size ≤ h.brk then some (h.lanesAt c o) else none) :=
  reaches_bind_of_low aligned brk_le small known low (h.lanesAt c o)

theorem write_of_low {values : List Nat} (whole : values.length = c.lanes) : h.write c o values =
    .ok (if c.width ∣ o ∧ o + c.size ≤ h.brk then
      some { h with memory := h.memory.storeNumbers o c.width values } else none) := by
  rw [write, List.take_of_length_le (Nat.le_of_eq whole)]
  exact reaches_bind_of_low aligned brk_le small known low _

end Low

end Cells

/-- The heap is the one that was reserved, and holds the bytes stored last. -/
structure Holds (start : Heap) (log : List (Request × Reply)) (h : Heap) : Prop where
  base : h.base = start.base
  brk_le : h.brk ≤ h.capacity
  small : h.capacity < 2 ^ 62
  spans : h.capacity ≤ 2 ^ h.memory.height
  get : ∀ i, h.memory.get i = lastStored log i

namespace Holds

variable {start h : Heap} {log : List (Request × Reply)} {c : Cell} {o : Nat}

theorem reserved {base capacity : Nat} (granted : reserve base capacity = .ok start) :
    Holds start [] start := by
  unfold reserve at granted
  split at granted
  · cases granted
  · split at granted
    · cases granted
    · next small =>
        cases granted
        exact ⟨rfl, Nat.zero_le _, Nat.lt_of_not_le small,
          Nat.le_of_lt (Memory.lt_height_zeros capacity), Memory.get_zeros capacity⟩

theorem brk_lt (holds : Holds start log h) : h.brk < Word.limit := by
  have := holds.brk_le
  have := holds.small
  simp only [Word.limit]
  omega

theorem get_write (holds : Holds start log h) {values : List Nat} (fits : o + c.size ≤ h.brk)
    (whole : values.length = c.lanes) (i : Nat) :
    (h.memory.storeNumbers o c.width values).get i =
      ((Request.write c o values).byteAt? i).getD (h.memory.get i) := by
  have size : c.size = c.width * values.length := by rw [Cell.size, whole, Nat.mul_comm]
  have := holds.brk_le
  have := holds.spans
  simp only [Request.byteAt?]
  split
  · next inside =>
      exact Memory.get_storeNumbers h.memory o c.width values (by omega) inside.1 (by omega)
  · next outside =>
      exact Memory.get_storeNumbers_of_outside h.memory o c.width values (by omega)

theorem unstored (holds : Holds start log h) {request : Request} {reply : Reply}
    (other : reply ≠ .stored true) : Holds start ((request, reply) :: log) h where
  base := holds.base
  brk_le := holds.brk_le
  small := holds.small
  spans := holds.spans
  get i := by
    rw [holds.get, lastStored]
    exact fun kept stored => other (congrArg Prod.snd stored)

theorem extend (holds : Holds start log h) (results : StepResults) (increment : Int) :
    Holds start ((.extend increment, (h.perform results (.extend increment)).1) :: log)
      (h.perform results (.extend increment)).2 := by
  simp only [perform, Heap.extend]
  by_cases room : 0 ≤ h.brk + increment ∧ h.brk + increment ≤ h.capacity
  · have kept : Holds start ((.extend increment, .previous h.brk) :: log) h := holds.unstored nofun
    have moved : (h.brk + increment).toNat ≤ h.capacity := by omega
    simp only [room, and_self, if_true]
    exact { kept with brk_le := moved }
  · simp only [room, if_false]
    exact holds.unstored nofun

theorem write (holds : Holds start log h) (aligned : 8 ∣ start.base) (results : StepResults)
    {values : List Nat} (typed : (Request.write c o values).Typed start.base) :
    Holds start ((.write c o values, (h.perform results (.write c o values)).1) :: log)
      (h.perform results (.write c o values)).2 := by
  obtain ⟨known, low, whole⟩ := typed
  rw [← holds.base] at aligned low
  simp only [perform, write_of_low aligned holds.brk_le holds.brk_lt known low whole]
  by_cases fits : c.width ∣ o ∧ o + c.size ≤ h.brk
  · simp only [fits, and_self, if_true]
    refine ⟨holds.base, holds.brk_le, holds.small, ?_, fun i => ?_⟩
    · rw [Memory.height_storeNumbers]
      exact holds.spans
    · rw [holds.get_write fits.2 whole, holds.get, lastStored]
  · simp only [fits, if_false]
    exact holds.unstored nofun

/-- What a request preserves. -/
theorem step (holds : Holds start log h) (aligned : 8 ∣ start.base) (results : StepResults)
    {request : Request} (typed : request.Typed start.base) :
    Holds start ((request, (h.perform results request).1) :: log)
      (h.perform results request).2 := by
  cases request with
  | extend increment => exact holds.extend results increment
  | write c o values => exact holds.write aligned results typed
  | capacity | offsetOf => exact holds.unstored nofun
  | address offset =>
      simp only [perform]
      split <;> exact holds.unstored nofun
  | read c o =>
      simp only [perform]
      split <;> exact holds.unstored nofun

theorem lanesAt (holds : Holds start log h) (c : Cell) (o : Nat) :
    h.lanesAt c o = storedLanes log c o := by
  simp only [Heap.lanesAt, storedLanes, Memory.number_eq_ofDigits, Memory.load, List.map_map,
    Function.comp_def, holds.get]

theorem byteStore (holds : Holds start log h) (aligned : 8 ∣ start.base) : ByteStore log h where
  brk_le := holds.brk_le
  extend _ := rfl
  read c known o low := by
    rw [← holds.base] at aligned
    rw [read_of_low aligned holds.brk_le holds.brk_lt known low, holds.lanesAt]
  write c known o values low whole := by
    rw [← holds.base] at aligned
    rw [write_of_low aligned holds.brk_le holds.brk_lt known low whole]
    split
    · next fits => exact ⟨_, rfl, holds.get_write fits.2 whole⟩
    · rfl

end Holds

theorem Runs.holds {start h : Heap} {log : List (Request × Reply)} (run : Runs start log h)
    (first : Holds start [] start) (aligned : 8 ∣ start.base) : Holds start log h := by
  induction run with
  | refl => exact first
  | step results request _ typed ih => exact ih.step aligned results typed

theorem Runs.script {start h : Heap} {log : List (Request × Reply)} (before : Runs start log h)
    (step : Nat) (results : StepResults) {requests : List Request}
    (typed : ∀ request ∈ requests, request.Typed start.base) :
    Runs start ((requests.zip ((run.go h step results requests).map Prod.fst)).reverse ++ log)
      (((run.go h step results requests).map Prod.snd).getLastD h) := by
  induction requests generalizing log h step results with
  | nil => exact before
  | cons request requests ih =>
      have next := before.step results request (typed request List.mem_cons_self)
      have rest := fun results => ih next (step + 1) results fun request listed =>
        typed request (List.mem_cons_of_mem _ listed)
      simp only [run.go, List.map_cons, List.zip_cons_cons, List.reverse_cons,
        List.append_assoc, List.singleton_append, List.getLastD_cons]
      exact rest _

/-- A heap region stores bytes, whatever was done with it since it was reserved. -/
theorem byteStore_of_run {base capacity : Nat} {start h : Heap} {log : List (Request × Reply)}
    (granted : reserve base capacity = .ok start) (aligned : 8 ∣ start.base)
    (run : Runs start log h) : ByteStore log h :=
  (run.holds (.reserved granted) aligned).byteStore aligned

/-- Two writes overlap, and the break is moved to the start and back before the bytes are read. -/
theorem byteStore_of_overlap : ∃ log h, Runs ⟨65536, 64, 0, .zeros 64⟩ log h ∧ ByteStore log h ∧
    storedLanes log .bits64 8 = [0x11223344abcd7788] := by
  have run := (Runs.refl : Runs ⟨65536, 64, 0, .zeros 64⟩ [] _)
    |>.step [] (.extend 32) trivial
    |>.step [] (.write .bits64 8 [0x1122334455667788]) ⟨by decide, by decide, rfl⟩
    |>.step [] (.write .bits16 10 [0xabcd]) ⟨by decide, by decide, rfl⟩
    |>.step [] (.extend (-32)) trivial
    |>.step [] (.extend 32) trivial
  exact ⟨_, _, run, byteStore_of_run (rfl : reserve 65536 64 = _) (by decide) run, by decide⟩

end Heap

end Confine
