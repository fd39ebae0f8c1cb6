import Confine.Proofs.Action

/-! # Errors change nothing

An operation reads first, then claims room at the break, then stores.  Reading leaves the state
alone, a claim that fails has not moved the break, and from the first store on an action can panic
but reports no error any more.  So an error leaves everything as it was, and that does not depend on
what the heap's bytes, the break and the ends of the list are.
-/

namespace Confine.Allocator

variable {α β : Type} {a : Allocator} {x : Action α} {f : α → Action β}

/-- The action changes nothing. -/
def Reads (x : Action α) : Prop :=
  ∀ a, (x a).2 = a

/-- The action fails in panics only. -/
def Panics (x : Action α) : Prop :=
  ∀ a fault, (x a).1 = .error fault → ∃ cause, fault = .panic cause

/-- The action changes nothing if it fails. -/
def Reverts (x : Action α) : Prop :=
  ∀ a fault, (x a).1 = .error fault → (x a).2 = a

/-- The action changes nothing if it reports an error. -/
def Atomic (x : Action α) : Prop :=
  ∀ a cause, (x a).1 = .error (.error cause) → (x a).2 = a

/-! ## Rules -/

theorem Reads.reverts (h : Reads x) : Reverts x :=
  fun a _ _ => h a

theorem Reverts.atomic (h : Reverts x) : Atomic x :=
  fun a cause => h a (.error cause)

theorem Panics.atomic (h : Panics x) : Atomic x := by
  intro a cause failed
  obtain ⟨_, ⟨⟩⟩ := h a _ failed

theorem Reads.bind (hx : Reads x) (hf : ∀ v, Reads (f v)) : Reads (x >>= f) := by
  intro a
  have same := hx a
  rcases run : x a with ⟨_ | v, a'⟩ <;> rw [run] at same
  · rw [bind_error run]
    exact same
  · rw [bind_ok run, hf v a']
    exact same

theorem Panics.bind (hx : Panics x) (hf : ∀ v, Panics (f v)) : Panics (x >>= f) := by
  intro a fault failed
  have stopped := hx a fault
  rcases run : x a with ⟨fault' | v, a'⟩ <;> rw [run] at stopped
  · rw [bind_error run] at failed
    cases failed
    exact stopped rfl
  · rw [bind_ok run] at failed
    exact hf v a' fault failed

theorem Reads.andThen (hx : Reads x) (hf : ∀ v, Atomic (f v)) : Atomic (x >>= f) := by
  intro a cause failed
  have same := hx a
  rcases run : x a with ⟨fault | v, a'⟩ <;> rw [run] at same
  · rw [bind_error run]
    exact same
  · rw [bind_ok run] at failed ⊢
    rw [hf v a' cause failed]
    exact same

/-- What follows an action does not spoil it if it fails in panics only. -/
theorem Atomic.andThen (hx : Atomic x) (hf : ∀ v, Panics (f v)) : Atomic (x >>= f) := by
  intro a cause failed
  have same := hx a cause
  rcases run : x a with ⟨fault | v, a'⟩ <;> rw [run] at same
  · rw [bind_error run] at failed ⊢
    cases failed
    exact same rfl
  · rw [bind_ok run] at failed
    obtain ⟨_, ⟨⟩⟩ := hf v a' _ failed

theorem Reverts.map (hx : Reverts x) (g : α → β) : Reverts (x >>= fun v => pure (g v)) := by
  intro a fault failed
  have same := hx a fault
  rcases run : x a with ⟨fault' | v, a'⟩ <;> rw [run] at same
  · rw [bind_error run] at failed ⊢
    cases failed
    exact same rfl
  · rw [bind_ok run] at failed
    cases failed

/-- A second attempt starts from where the first one did. -/
theorem Reverts.tryCatch {handler : Fault → Action α} (hx : Reverts x)
    (hh : ∀ fault, Atomic (handler fault)) : Atomic (tryCatch x handler) := by
  intro a cause failed
  have same := hx a
  rcases run : x a with ⟨fault | v, a'⟩ <;> rw [run] at same
  · rw [tryCatch_error run] at failed ⊢
    rw [hh fault a' cause failed]
    exact same fault rfl
  · rw [tryCatch_ok run] at failed
    cases failed

/-! ## Primitives -/

theorem reads_pure (v : α) : Reads (pure v) :=
  fun _ => rfl

theorem reads_get : Reads get :=
  fun _ => rfl

theorem reads_throw (fault : Fault) : Reads (throw fault : Action α) :=
  fun _ => rfl

theorem reads_fail (cause : AllocError) : Reads (fail cause : Action α) :=
  fun _ => rfl

theorem reads_orPanic (e : Except Panic α) : Reads (orPanic e) := by
  cases e <;> exact fun _ => rfl

theorem reads_orExhausted (o : Option α) : Reads (orExhausted o) := by
  cases o <;> exact fun _ => rfl

theorem panics_pure (v : α) : Panics (pure v) :=
  fun _ _ => nofun

theorem panics_get : Panics get :=
  fun _ _ => nofun

theorem panics_set (a' : Allocator) : Panics (set a') :=
  fun _ _ => nofun

theorem panics_modify (g : Allocator → Allocator) : Panics (modify g) :=
  fun _ _ => nofun

theorem panics_panic (cause : Panic) : Panics (throw (.panic cause) : Action α) :=
  fun _ _ failed => ⟨cause, (Except.error.inj failed).symm⟩

theorem panics_orPanic (e : Except Panic α) : Panics (orPanic e) := by
  cases e with
  | ok v => exact panics_pure v
  | error cause => exact panics_panic cause

/-! ## Headers and the block list -/

variable {block : Nat}

theorem reads_header (block : Nat) : Reads (header block) :=
  reads_get.bind fun _ => reads_orPanic _

theorem panics_header (block : Nat) : Panics (header block) :=
  panics_get.bind fun _ => panics_orPanic _

theorem panics_storeHeader (block : Nat) (hd : Header) : Panics (storeHeader block hd) := by
  refine panics_get.bind fun a => (panics_orPanic _).bind fun stored => ?_
  cases stored with
  | some heap => exact panics_set _
  | none => exact panics_panic _

theorem panics_update (block : Nat) (change : Header → Header) : Panics (update block change) :=
  (panics_header block).bind fun _ => panics_storeHeader block _

theorem panics_linkBack (block : Nat) (successor : Option Nat) :
    Panics (linkBack block successor) := by
  cases successor with
  | some next => exact panics_update next _
  | none => exact panics_modify _

theorem panics_payload (block : Nat) : Panics (payload block) :=
  (panics_orPanic _).bind fun _ => panics_get.bind fun _ => panics_orPanic _

theorem panics_coalesce (block : Nat) : Panics (coalesce block) := by
  refine (panics_header block).bind fun own => ?_
  split
  · refine (panics_header _).bind fun successor => ?_
    split
    · exact panics_pure _
    · refine (panics_orPanic _).bind fun stop => ?_
      split
      · exact panics_pure _
      · exact (panics_linkBack _ _).bind fun _ => (panics_header _).bind fun _ =>
          (panics_orPanic _).bind fun _ => panics_storeHeader _ _
  · exact panics_pure _

theorem panics_split (block required : Nat) : Panics (split block required) := by
  refine (panics_header block).bind fun own => (panics_orPanic _).bind fun rest => ?_
  split
  · exact panics_pure _
  · exact (panics_orPanic _).bind fun _ => (panics_storeHeader _ _).bind fun _ =>
      (panics_linkBack _ _).bind fun _ => (panics_update _ _).bind fun _ => panics_coalesce _

theorem panics_release (block : Nat) : Panics (release block) := by
  refine (panics_update _ _).bind fun _ => (panics_coalesce _).bind fun _ =>
    (panics_header _).bind fun own => ?_
  split
  · exact panics_coalesce _
  · exact panics_pure _

theorem reads_firstFit (required : Nat) : Reads (firstFit required) := by
  refine reads_get.bind fun a => ?_
  split
  · exact reads_pure _
  · exact reads_throw _

/-! ## The break -/

theorem reverts_moveBreak (increment : Int) : Reverts (moveBreak increment) := by
  intro a fault failed
  rw [moveBreak, get_bind] at failed ⊢
  cases moved : a.heap.extend increment with
  | ok result =>
      rw [moved] at failed
      cases failed
  | error cause => rfl

theorem reverts_claim (padding size : Nat) : Reverts (claim padding size) := by
  rw [claim]
  cases (Word.add? padding size).filter (· < 2 ^ 63) with
  | none => exact Reads.reverts fun _ => rfl
  | some increment => exact (reverts_moveBreak increment).map _

theorem panics_append (offset size : Nat) : Panics (do
    let last := (← get).tail
    storeHeader offset { prev := last, next := none, size, allocated := false, reserved := 0 }
    match last with
    | some block => update block ({ · with next := some offset })
    | none => modify ({ · with head := some offset })
    modify fun a => { a with tail := some offset, growths := ⟨offset, size⟩ :: a.growths }
    return offset) := by
  refine panics_get.bind fun a => (panics_storeHeader _ _).bind fun _ => ?_
  have recorded : Panics (do
      modify fun a => { a with tail := some offset, growths := ⟨offset, size⟩ :: a.growths }
      return offset) :=
    (panics_modify _).bind fun _ => panics_pure _
  split
  · exact (panics_update _ _).bind fun _ => recorded
  · exact (panics_modify _).bind fun _ => recorded

/-- Growing claims room, in two attempts, before it stores anything. -/
theorem atomic_grow (required : Nat) : Atomic (grow required) := by
  refine reads_get.andThen fun a => (reads_orPanic _).andThen fun rounded => ?_
  exact Atomic.andThen (Reverts.tryCatch ((reverts_claim _ _).map _) fun _ =>
    ((reverts_claim _ _).map _).atomic) fun room => panics_append room.1 room.2

theorem panics_mark (required block : Nat) : Panics (do
    split block required
    update block ({ · with allocated := true })
    return block) :=
  (panics_split _ _).bind fun _ => (panics_update _ _).bind fun _ => panics_pure _

theorem atomic_takeBlock (required : Nat) : Atomic (takeBlock required) := by
  refine (reads_firstFit required).andThen fun found => ?_
  split
  · exact (panics_mark required _).atomic
  · exact (atomic_grow required).andThen (panics_mark required)

/-! ## The operations -/

theorem atomic_allocate (size : Nat) : Atomic (allocate size) :=
  (reads_orExhausted _).andThen fun required =>
    (atomic_takeBlock required).andThen panics_payload

theorem atomic_zeroAllocate (count size : Nat) : Atomic (zeroAllocate count size) :=
  (atomic_allocate _).andThen fun _ => (panics_modify _).bind fun _ => panics_pure _

theorem reads_liveBlock (address : Nat) : Reads (liveBlock address) := by
  refine reads_get.bind fun a => ?_
  extract_lets invalid
  split
  · exact reads_fail _
  · next offset _ =>
      extract_lets check
      have checked : Reads (check ()) := by
        refine (reads_orPanic _).bind fun found => ?_
        split
        · exact reads_fail _
        · refine (reads_orPanic _).bind fun linked => ?_
          split
          · exact reads_pure _
          · exact reads_fail _
      split
      · exact (reads_fail _).bind fun _ => checked
      · exact checked

theorem reads_usableSize (address : Nat) : Reads (usableSize address) :=
  (reads_liveBlock address).bind fun _ => (reads_header _).bind fun _ => reads_orPanic _

theorem atomic_free (address : Nat) : Atomic (free address) := by
  unfold free
  split
  · exact (panics_pure _).atomic
  · exact (reads_liveBlock address).andThen fun block => (panics_release block).atomic

theorem atomic_resize (address size : Nat) : Atomic (resize address size) := by
  unfold resize
  split
  · exact (atomic_allocate size).andThen fun _ => panics_pure _
  · split
    · exact (atomic_free address).andThen fun _ => panics_pure _
    · refine (reads_liveBlock address).andThen fun block => (reads_header block).andThen fun own =>
        (reads_orPanic _).andThen fun usable => (atomic_allocate size).andThen fun target => ?_
      exact (panics_modify _).bind fun _ => (panics_release block).bind fun _ => panics_pure _

theorem panics_carve (block gap : Nat) : Panics (carve block gap) := by
  refine (panics_header block).bind fun own => (panics_orPanic _).bind fun aligned =>
    (panics_orPanic _).bind fun rest => (panics_storeHeader _ _).bind fun _ =>
    (panics_linkBack _ _).bind fun _ => (panics_update _ _).bind fun _ => ?_
  split
  · exact (panics_coalesce _).bind fun _ => panics_pure _
  · exact panics_pure _

theorem panics_align (alignment required block : Nat) : Panics (do
    let address ← payload block
    let gap := (← orPanic (Word.nextMultiple address alignment)) - address
    if gap = 0 then
      split block required
      return address
    if gap % Header.bytes ≠ 0 then throw (.panic .gapOffGrid)
    let aligned ← carve block gap
    split aligned required
    payload aligned) := by
  refine (panics_payload block).bind fun address => (panics_orPanic _).bind fun rounded => ?_
  extract_lets gap cut
  have carved : Panics (cut ()) :=
    (panics_carve _ _).bind fun _ => (panics_split _ _).bind fun _ => panics_payload _
  split
  · exact (panics_split _ _).bind fun _ => panics_pure _
  · split
    · exact (panics_panic _).bind fun _ => carved
    · exact carved

theorem atomic_allocateAligned (alignment size : Nat) :
    Atomic (allocateAligned alignment size) := by
  unfold allocateAligned
  extract_lets checked
  have aligned : Atomic (checked ()) := by
    change Atomic (if alignment ≤ Header.bytes then _ else _)
    split
    · exact atomic_allocate size
    · exact (reads_orExhausted _).andThen fun required =>
        (reads_orExhausted _).andThen fun padded =>
        (atomic_takeBlock padded).andThen (panics_align alignment required)
  split
  · exact (reads_fail _).andThen fun _ => aligned
  · exact aligned

theorem atomic_sbrk (increment : Int) : Atomic (sbrk increment) := by
  refine reads_get.andThen fun a => ?_
  extract_lets move above
  have moved : Atomic (move ()) :=
    (reverts_moveBreak increment).atomic.andThen fun _ => panics_get.bind fun _ =>
      panics_orPanic _
  have checked (floor : Nat) : Atomic (above floor) := by
    unfold above
    split
    · refine (reads_orPanic _).andThen fun spare => ?_
      split
      · exact (reads_fail _).andThen fun _ => moved
      · exact moved
    · exact moved
  split
  · exact (reads_pure 0).andThen checked
  · exact (reads_header _).andThen fun own => (reads_orPanic _).andThen checked

theorem atomic_action (op : Operation Nat) : Atomic op.action := by
  cases op with
  | allocate size => exact (atomic_allocate size).andThen fun _ => panics_pure _
  | zeroAllocate count size =>
      exact (atomic_zeroAllocate count size).andThen fun _ => panics_pure _
  | resize pointer size => exact (atomic_resize pointer size).andThen fun _ => panics_pure _
  | allocateAligned alignment size =>
      exact (atomic_allocateAligned alignment size).andThen fun _ => panics_pure _
  | sbrk increment => exact (atomic_sbrk increment).andThen fun _ => panics_pure _
  | free pointer => exact (atomic_free pointer).andThen fun _ => panics_pure _
  | usableSize pointer =>
      exact (reads_usableSize pointer).reverts.atomic.andThen fun _ => panics_pure _

theorem exists_of_map {g : α → β} {w : β} (h : ((x >>= fun v => pure (g v)) a).1 = .ok w) :
    ∃ v, w = g v := by
  rcases run : x a with ⟨fault | v, a'⟩
  · rw [bind_error run] at h
    cases h
  · rw [bind_ok run] at h
    cases h
    exact ⟨v, rfl⟩

theorem failed_iff {op : Operation Nat} {fault : Fault} :
    (a.perform (.operation op)).1 = .failed fault ↔ (op.action a).1 = .error fault := by
  have value {reply : Reply} (h : (op.action a).1 = .ok reply) : reply ≠ .failed fault := by
    cases op <;> obtain ⟨v, rfl⟩ := exists_of_map h <;> rintro ⟨⟩
  rcases run : op.action a with ⟨fault' | reply, a'⟩ <;> simp only [perform, run] at value ⊢
  · rw [Reply.failed.injEq, Except.error.injEq]
  · exact iff_of_false (value rfl) (by rintro ⟨⟩)

/-- An operation that reports an error leaves the allocator as it was, in every state of it. -/
theorem unchanged_of_error (a : Allocator) (op : Operation Nat) (cause : AllocError)
    (failed : (a.perform (.operation op)).1 = .failed (.error cause)) :
    (a.perform (.operation op)).2 = a :=
  (perform_operation_snd op).trans (atomic_action op a cause (failed_iff.mp failed))

/-- A list that has a last block but no first one, and a heap without a header for it. -/
def damaged : Allocator :=
  ⟨⟨2 ^ 32, 2 ^ 20, 2 ^ 16, .zeros (2 ^ 20)⟩, none, some 8, []⟩

theorem unchanged_of_error_damaged :
    (damaged.perform (.operation (.allocate (2 ^ 20)))).1 = .failed (.error .outOfMemory) ∧
      (damaged.perform (.operation (.allocate (2 ^ 20)))).2 = damaged := by
  have failed : (damaged.perform (.operation (.allocate (2 ^ 20)))).1 =
      .failed (.error .outOfMemory) := by
    decide +kernel
  exact ⟨failed, unchanged_of_error damaged (.allocate (2 ^ 20)) .outOfMemory failed⟩

end Confine.Allocator
