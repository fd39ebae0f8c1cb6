import Confine.Proofs.Atomicity
import Confine.Proofs.Client.BlockList

/-! # The errors that an operation reports

Every operation has its own few reasons to report an error, whatever it finds in the heap.  The only
walk along the block list looks for a free block, so where that walk ends every operation does.
-/

namespace Confine

/-- The errors that the operation may report. -/
def Operation.Causes : Operation Nat → AllocError → Prop
  | allocate _, cause | zeroAllocate _ _, cause | sbrk _, cause => cause = .outOfMemory
  | resize pointer _, cause => cause = .outOfMemory ∨ cause = .invalidPointer pointer
  | allocateAligned alignment _, cause =>
    if alignment.isPowerOfTwo then cause = .outOfMemory else cause = .invalidAlignment alignment
  | free pointer, cause | usableSize pointer, cause => cause = .invalidPointer pointer

/-- The fault is a panic or one of some errors. -/
def Fault.Among (causes : AllocError → Prop) : Fault → Prop
  | .error cause => causes cause
  | .panic _ => True
  | .endless => False

namespace Allocator

variable {α β : Type} {a : Allocator} {x : Action α} {f : α → Action β}
variable {causes : AllocError → Prop}

/-- If the action fails, then in a panic or by one of some errors. -/
def Fails (causes : AllocError → Prop) (x : Action α) (a : Allocator) : Prop :=
  ∀ fault, (x a).1 = .error fault → fault.Among causes

/-- The search for a free block ends. -/
def Walks (a : Allocator) : Prop :=
  ∀ required, ∃ block, a.firstFitFrom required a.walkBound a.head = .ok block

/-! ## Rules -/

theorem Panics.fails (h : Panics x) : Fails causes x a := by
  intro fault failed
  obtain ⟨_, rfl⟩ := h a fault failed
  trivial

theorem Fails.bind (hx : Fails causes x a) (hf : ∀ v a', Fails causes (f v) a') :
    Fails causes (x >>= f) a := by
  intro fault failed
  rcases run : x a with ⟨fault' | v, a'⟩
  · rw [bind_error run] at failed
    cases failed
    exact hx fault (congrArg Prod.fst run)
  · rw [bind_ok run] at failed
    exact hf v a' fault failed

theorem Fails.map (h : Fails causes x a) (g : α → β) :
    Fails causes (x >>= fun v => pure (g v)) a :=
  h.bind fun _ _ => (panics_pure _).fails

theorem Fails.read (hx : Fails causes x a) (reads : Reads x) (hf : ∀ v, Fails causes (f v) a) :
    Fails causes (x >>= f) a := by
  intro fault failed
  have same := reads a
  rcases run : x a with ⟨fault' | v, a'⟩ <;> rw [run] at same
  · rw [bind_error run] at failed
    cases failed
    exact hx fault (congrArg Prod.fst run)
  · rw [bind_ok run] at failed
    cases same
    exact hf v fault failed

theorem Fails.tryCatch {handler : Fault → Action α}
    (h : ∀ fault a', Fails causes (handler fault) a') : Fails causes (tryCatch x handler) a := by
  intro fault failed
  rcases run : x a with ⟨fault' | v, a'⟩
  · rw [tryCatch_error run] at failed
    exact h fault' a' fault failed
  · rw [tryCatch_ok run] at failed
    cases failed

theorem fails_fail {cause : AllocError} (known : causes cause) :
    Fails causes (fail cause : Action α) a := by
  rintro _ ⟨⟩
  exact known

theorem fails_orExhausted (exhausts : causes .outOfMemory) (o : Option α) :
    Fails causes (orExhausted o) a := by
  cases o with
  | some v => exact (panics_pure v).fails
  | none => exact fails_fail exhausts

/-! ## The search for a free block -/

theorem firstFitFrom_of_blocksFrom {required limit : Nat} {block : Option Nat} {bs : List Block}
    (walk : a.blocksFrom limit block = .ok bs) (short : bs.length < limit) :
    ∃ found, a.firstFitFrom required limit block = .ok found := by
  induction limit generalizing block bs with
  | zero => exact absurd short (Nat.not_lt_zero _)
  | succ limit ih =>
      cases block with
      | none => exact ⟨none, rfl⟩
      | some block =>
          rw [blocksFrom] at walk
          cases read : a.headerOf block with
          | error cause =>
              rw [read] at walk
              cases walk
          | ok header =>
              rw [read] at walk
              cases next : a.blocksFrom limit header.next with
              | error cause =>
                  simp only [bind, Except.bind, next] at walk
                  cases walk
              | ok rest =>
                  simp only [bind, Except.bind, next] at walk
                  cases walk
                  simp only [firstFitFrom, read]
                  split
                  · exact ⟨_, rfl⟩
                  · exact ih next (Nat.lt_of_succ_lt_succ short)

theorem length_le_of_ordered {bs : List Block} {s brk : Nat} (le : s ≤ brk)
    (above : ∀ b ∈ bs, s ≤ b.offset) (ordered : bs.Pairwise fun b c => b.stop ≤ c.offset)
    (large : ∀ b ∈ bs, 32 ≤ b.size) (below : ∀ b ∈ bs, b.stop ≤ brk) :
    s + 32 * bs.length ≤ brk := by
  induction bs generalizing s with
  | nil => exact le
  | cons b rest ih =>
      obtain ⟨behind, ordered⟩ := List.pairwise_cons.mp ordered
      have first := above b List.mem_cons_self
      have size := large b List.mem_cons_self
      have fits := ih (below b List.mem_cons_self) behind ordered
        (fun c hc => large c (List.mem_cons_of_mem b hc))
        (fun c hc => below c (List.mem_cons_of_mem b hc))
      simp only [Block.stop, List.length_cons] at fits ⊢
      omega

theorem WellFormed.walks {bs : List Block} (formed : a.WellFormed bs) : a.Walks := by
  intro required
  have length := length_le_of_ordered (Nat.zero_le _) (fun b _ => Nat.zero_le b.offset)
    formed.ordered formed.large formed.below
  exact firstFitFrom_of_blocksFrom formed.walk (by simp only [walkBound]; omega)

theorem fails_firstFit (walks : a.Walks) (required : Nat) : Fails causes (firstFit required) a := by
  intro fault failed
  obtain ⟨block, found⟩ := walks required
  rw [firstFit, get_bind, found] at failed
  cases failed

/-! ## The break -/

theorem fails_moveBreak (exhausts : causes .outOfMemory) (increment : Int) :
    Fails causes (moveBreak increment) a := by
  rw [moveBreak]
  refine panics_get.fails.bind fun a _ => ?_
  cases moved : a.heap.extend increment with
  | ok result => exact ((panics_set _).bind fun _ => panics_pure _).fails
  | error cause =>
      obtain rfl : cause = .outOfMemory := by
        unfold Heap.extend at moved
        dsimp only at moved
        split at moved <;> cases moved
        rfl
      exact fails_fail exhausts

theorem fails_claim (exhausts : causes .outOfMemory) (padding size : Nat) :
    Fails causes (claim padding size) a :=
  (fails_orExhausted exhausts _).bind fun _ _ => (fails_moveBreak exhausts _).bind fun _ _ =>
    (panics_pure _).fails

theorem fails_grow (exhausts : causes .outOfMemory) (required : Nat) :
    Fails causes (grow required) a := by
  refine panics_get.fails.bind fun _ _ => (panics_orPanic _).fails.bind fun _ _ => ?_
  exact Fails.bind (.tryCatch fun _ _ => (fails_claim exhausts _ _).bind fun _ _ =>
    (panics_pure _).fails) fun room _ => (panics_append room.1 room.2).fails

theorem fails_takeBlock (walks : a.Walks) (exhausts : causes .outOfMemory) (required : Nat) :
    Fails causes (takeBlock required) a := by
  refine (fails_firstFit walks required).bind fun found a' => ?_
  split
  · exact (panics_mark required _).fails
  · exact (fails_grow exhausts required).bind fun block _ => (panics_mark required block).fails

/-! ## The operations -/

theorem fails_allocate (walks : a.Walks) (exhausts : causes .outOfMemory) (size : Nat) :
    Fails causes (allocate size) a :=
  (fails_orExhausted exhausts _).read (reads_orExhausted _) fun _ =>
    (fails_takeBlock walks exhausts _).bind fun block _ => (panics_payload block).fails

theorem fails_zeroAllocate (walks : a.Walks) (exhausts : causes .outOfMemory) (count size : Nat) :
    Fails causes (zeroAllocate count size) a :=
  (fails_allocate walks exhausts _).bind fun _ _ =>
    ((panics_modify _).bind fun _ => panics_pure _).fails

theorem fails_liveBlock {address : Nat} (rejects : causes (.invalidPointer address)) :
    Fails causes (liveBlock address) a := by
  refine panics_get.fails.bind fun a _ => ?_
  extract_lets invalid
  have rejected {γ : Type} {a : Allocator} : Fails causes (fail invalid : Action γ) a :=
    fails_fail rejects
  split
  · exact rejected
  · extract_lets check
    have checked {a : Allocator} : Fails causes (check ()) a := by
      refine (panics_orPanic _).fails.bind fun found _ => ?_
      split
      · exact rejected
      · refine (panics_orPanic _).fails.bind fun linked _ => ?_
        split
        · exact (panics_pure _).fails
        · exact rejected
    split
    · exact rejected.bind fun _ _ => checked
    · exact checked

theorem fails_usableSize {address : Nat} (rejects : causes (.invalidPointer address)) :
    Fails causes (usableSize address) a :=
  (fails_liveBlock rejects).bind fun _ _ =>
    ((panics_header _).bind fun _ => panics_orPanic _).fails

theorem fails_free {address : Nat} (rejects : causes (.invalidPointer address)) :
    Fails causes (free address) a := by
  unfold free
  split
  · exact (panics_pure _).fails
  · exact (fails_liveBlock rejects).bind fun block _ => (panics_release block).fails

theorem fails_resize (walks : a.Walks) {address : Nat} (exhausts : causes .outOfMemory)
    (rejects : causes (.invalidPointer address)) (size : Nat) :
    Fails causes (resize address size) a := by
  unfold resize
  split
  · exact (fails_allocate walks exhausts size).bind fun _ _ => (panics_pure _).fails
  · split
    · exact (fails_free rejects).bind fun _ _ => (panics_pure _).fails
    · refine (fails_liveBlock rejects).read (reads_liveBlock address) fun block => ?_
      refine (panics_header block).fails.read (reads_header block) fun own => ?_
      refine (panics_orPanic _).fails.read (reads_orPanic _) fun usable => ?_
      refine (fails_allocate walks exhausts size).bind fun target _ => ?_
      exact ((panics_modify _).bind fun _ =>
        (panics_release block).bind fun _ => panics_pure _).fails

theorem allocateAligned_of_misaligned {alignment : Nat} (odd : ¬alignment.isPowerOfTwo)
    (size : Nat) :
    (allocateAligned alignment size a) = (.error (.error (.invalidAlignment alignment)), a) := by
  rw [← Word.isPowerOfTwo_iff, Bool.not_eq_true] at odd
  simp only [allocateAligned, odd]
  rfl

theorem fails_allocateAligned (walks : a.Walks) (exhausts : causes .outOfMemory)
    {alignment : Nat} (power : alignment.isPowerOfTwo) (size : Nat) :
    Fails causes (allocateAligned alignment size) a := by
  rw [← Word.isPowerOfTwo_iff] at power
  unfold allocateAligned
  simp only [power, Bool.not_true, Bool.false_eq_true, if_false]
  split
  · exact fails_allocate walks exhausts size
  · refine (fails_orExhausted exhausts _).read (reads_orExhausted _) fun required => ?_
    refine (fails_orExhausted exhausts _).read (reads_orExhausted _) fun padded => ?_
    exact (fails_takeBlock walks exhausts padded).bind fun block _ =>
      (panics_align alignment required block).fails

theorem fails_sbrk (exhausts : causes .outOfMemory) (increment : Int) :
    Fails causes (sbrk increment) a := by
  refine panics_get.fails.bind fun a _ => ?_
  extract_lets move above
  have moved {a : Allocator} : Fails causes (move ()) a :=
    (fails_moveBreak exhausts increment).bind fun _ _ =>
      (panics_get.bind fun _ => panics_orPanic _).fails
  have checked (floor : Nat) {a : Allocator} : Fails causes (above floor) a := by
    unfold above
    split
    · refine (panics_orPanic _).fails.bind fun spare _ => ?_
      split
      · exact (fails_fail exhausts).bind fun _ _ => moved
      · exact moved
    · exact moved
  split
  · exact (panics_pure 0).fails.bind fun floor _ => checked floor
  · exact (panics_header _).fails.bind fun own _ =>
      (panics_orPanic _).fails.bind fun floor _ => checked floor

/-- An operation reports no error but those that are its own. -/
theorem fails_action (walks : a.Walks) (op : Operation Nat) : Fails op.Causes op.action a := by
  cases op <;> refine .map ?_ _
  case allocate size => exact fails_allocate walks (by rfl) size
  case zeroAllocate count size => exact fails_zeroAllocate walks (by rfl) count size
  case resize pointer size => exact fails_resize walks (.inl rfl) (.inr rfl) size
  case allocateAligned alignment size =>
    by_cases power : alignment.isPowerOfTwo
    · exact fails_allocateAligned walks ((if_pos power).mpr rfl) power size
    · rw [Fails, allocateAligned_of_misaligned power]
      rintro _ ⟨⟩
      exact (if_neg power).mpr rfl
  case sbrk increment => exact fails_sbrk (by rfl) increment
  case free pointer => exact fails_free rfl
  case usableSize pointer => exact fails_usableSize rfl

end Allocator

end Confine
