import Confine.Proofs.Causes
import Confine.Proofs.Sandbox.MainExit
import Confine.Proofs.Sandbox.Writing

/-! # The C interface is an image of the allocator

A call of an allocation function carries out one operation of the allocator, and what it leaves
behind is a matter of how that operation was answered.  A few calls are answered without the
allocator.
-/

namespace Confine

namespace CReply

/-- The reply says that an argument is invalid, by an error number or by a code. -/
def RefusesArgument (r : CReply) : Prop :=
  r = ⟨.pointer 0, some ⟨22⟩⟩ ∨ r = ⟨.code 22 none, none⟩

end CReply

namespace CCall

/-- The call asks for an alignment that its function does not accept. -/
def Misaligned : CCall Nat → Prop
  | alignedAlloc alignment _ | memalign alignment _ => ¬alignment.isPowerOfTwo
  | posixMemalign alignment _ => ¬(alignment.isPowerOfTwo ∧ 8 ∣ alignment)
  | _ => False

/-- The call returns the pointer that its operation is answered with. -/
def ReturnsPointer : CCall Nat → Prop
  | malloc _ | calloc _ _ | realloc _ _ | alignedAlloc _ _ | memalign _ _ | sbrk _ => True
  | posixMemalign _ _ | free _ | mallocUsableSize _ => False

/-- The reply to a call that is answered without the allocator. -/
inductive Refuses : CCall Nat → CReply → Prop
  | misaligned {alignment size : Nat} (misaligned : ¬(alignment.isPowerOfTwo ∧ 8 ∣ alignment)) :
      Refuses (posixMemalign alignment size) ⟨.code 22 none, none⟩
  | null : Refuses (mallocUsableSize 0) ⟨.size 0, none⟩

/-- The reply to a call whose operation was answered, and the lines that report it whatever the
verbosity. -/
inductive Shows : CCall Nat → Reply → CReply → List String → Prop
  | pointer {c : CCall Nat} {address : Option Nat} (returns : c.ReturnsPointer) :
      Shows c (.address address) ⟨.pointer (address.getD 0), none⟩ []
  | exhausted {c : CCall Nat} (returns : c.ReturnsPointer)
      (other : ∀ increment, c ≠ sbrk increment) :
      Shows c (.failed (.error .outOfMemory)) ⟨.pointer 0, some ⟨12⟩⟩ []
  | breakKept {increment : Int} :
      Shows (sbrk increment) (.failed (.error .outOfMemory)) ⟨.pointer (2 ^ 64 - 1), some ⟨12⟩⟩ []
  | misaligned {c : CCall Nat} {alignment : Nat} (returns : c.ReturnsPointer)
      (misaligned : c.Misaligned) :
      Shows c (.failed (.error (.invalidAlignment alignment))) ⟨.pointer 0, some ⟨22⟩⟩ []
  | notMoved {pointer size : Nat} :
      Shows (realloc pointer size) (.failed (.error (.invalidPointer pointer))) ⟨.pointer 0, none⟩
        [s!"Invalid realloc at {Text.hex pointer}"]
  | stored {alignment size address : Nat} :
      Shows (posixMemalign alignment size) (.address (some address))
        ⟨.code 0 (some address), none⟩ []
  | notStored {alignment size : Nat} :
      Shows (posixMemalign alignment size) (.failed (.error .outOfMemory)) ⟨.code 12 none, none⟩ []
  | freed {pointer : Nat} : Shows (free pointer) .done ⟨.void, none⟩ []
  | notFreed {pointer : Nat} :
      Shows (free pointer) (.failed (.error (.invalidPointer pointer))) ⟨.void, none⟩
        [s!"Invalid free at {Text.hex pointer}"]
  | size {pointer bytes : Nat} :
      Shows (mallocUsableSize pointer) (.size bytes) ⟨.size bytes, none⟩ []
  | noSize {pointer : Nat} :
      Shows (mallocUsableSize pointer) (.failed (.error (.invalidPointer pointer)))
        ⟨.size 0, none⟩ []

end CCall

namespace Log

/-- The lines are records that the logger writes. -/
def Logger.Records (l : Logger) (lines : List String) : Prop :=
  ∀ line ∈ lines, ∃ level text, line ∈ l.record level text

variable {l : Logger} {xs ys : List String}

theorem Logger.Records.nil : l.Records [] :=
  nofun

theorem Logger.Records.append (hx : l.Records xs) (hy : l.Records ys) : l.Records (xs ++ ys) :=
  fun line listed => (List.mem_append.mp listed).elim (hx line) (hy line)

theorem Logger.records_record (l : Logger) (level : Level) (text : String) :
    l.Records (l.record level text) :=
  fun _ listed => ⟨level, text, listed⟩

end Log

namespace Sandbox

variable {m : Machine} {p : Sandbox} {a : Allocator}

theorem forM_log {ι : Type} (items : List ι) (level : Log.Level) (text : ι → String)
    (p : Sandbox) : ∃ lines, p.logger.Records lines ∧
      (items.forM fun i => log level (text i)) p = (.ok (), p.writing lines) := by
  induction items generalizing p with
  | nil => exact ⟨[], .nil, by rw [writing_nil]; rfl⟩
  | cons i items ih =>
      obtain ⟨lines, records, rest⟩ := ih (p.writing (p.logger.record level (text i)))
      rw [logger_writing] at records
      refine ⟨_, (Log.Logger.records_record _ level (text i)).append records, ?_⟩
      rw [← writing_writing, ← rest]
      exact bind_ok (log_eq level (text i) p)

theorem provision_eq (held : p.context.allocator = some a) : provision m p = (.ok a, p) := by
  unfold provision
  refine (bind_ok (show (get : Run Sandbox) p = (.ok p, p) from rfl)).trans ?_
  rw [held]
  rfl

theorem onAllocator_eq {α : Type} {action : Allocator.Action α} {a' : Allocator}
    {result : Except AllocError α} (held : p.context.allocator = some a)
    (run : action a = (result.mapError .error, a')) : ∃ records, p.logger.Records records ∧
      onAllocator m action p =
        (.ok result, { p with context.allocator := some a' }.writing records) := by
  obtain ⟨records, logged, written⟩ := forM_log
    (a'.growths.take (a'.growths.length - a.growths.length)).reverse .trace growthMessage
    { p with context.allocator := some a' }
  refine ⟨records, logged, ?_⟩
  have swapped : modifyContext ({ · with allocator := some a' }) p =
      (.ok (), { p with context.allocator := some a' }) := rfl
  rw [onAllocator, bind_ok (provision_eq held)]
  simp only [run]
  rw [bind_ok swapped, bind_ok written]
  cases result <;> rfl

end Sandbox

def Reply.ofResult {α : Type} (g : α → Reply) : Except AllocError α → Reply
  | .ok v => g v
  | .error cause => .failed (.error cause)

theorem Operation.exists_result {α : Type} {a : Allocator} {op : Operation Nat}
    {x : Allocator.Action α} {g : α → Reply} (walks : a.Walks)
    (shape : op.action = x >>= fun v => pure (g v))
    (calm : ∀ cause, (a.perform (.operation op)).1 ≠ .failed (.panic cause)) :
    ∃ result : Except AllocError α, ∃ a', x a = (result.mapError .error, a') ∧
      a.perform (.operation op) = (.ofResult g result, a') ∧
      ∀ cause, result = .error cause → op.Causes cause := by
  have fails := Allocator.fails_action walks op
  rw [Allocator.Fails] at fails
  simp only [Allocator.perform, shape] at calm fails ⊢
  rcases run : x a with ⟨fault | v, a'⟩
  · rw [bind_error run] at calm fails ⊢
    cases fault with
    | error cause =>
        refine ⟨.error cause, a', rfl, rfl, ?_⟩
        rintro _ ⟨⟩
        exact fails _ rfl
    | panic cause => exact absurd rfl (calm cause)
    | endless => exact (fails _ rfl).elim
  · rw [bind_ok run]
    refine ⟨.ok v, a', rfl, rfl, ?_⟩
    rintro _ ⟨⟩

namespace CCall

variable {m : Machine} {p : Sandbox} {a : Allocator} {c : CCall Nat}

/-- A computation shows an answer of the allocator as the call does, and writes nothing but lines to
standard error in the process `q`: records of the log, and those that report the answer. -/
def ShownBy (c : CCall Nat) (reply : Reply) (x : Run CReply) (p q : Sandbox) : Prop :=
  ∃ r records lines, c.Shows reply r lines ∧ p.logger.Records records ∧
    x p = (.ok r, q.writing (records ++ lines))

/-- A call that shows each result of its operation shows how the allocator answered. -/
theorem shownBy_of_results {α : Type} {x : Allocator.Action α} {g : α → Reply}
    {f : Except AllocError α → Run CReply} (held : p.context.allocator = some a) (walks : a.Walks)
    (calm : ∀ cause, (a.perform (.operation c.operation)).1 ≠ .failed (.panic cause))
    (shape : c.operation.action = x >>= fun v => pure (g v))
    (returned : ∀ v q, c.ShownBy (g v) (f (.ok v)) q q)
    (reported : ∀ cause q, c.operation.Causes cause →
      c.ShownBy (.failed (.error cause)) (f (.error cause)) q q) :
    c.ShownBy (a.perform (.operation c.operation)).1 (Sandbox.onAllocator m x >>= f) p
      (p.served a (.operation c.operation)) := by
  obtain ⟨result, a', ran, performed, known⟩ := Operation.exists_result walks shape calm
  obtain ⟨before, logged, returns⟩ := Sandbox.onAllocator_eq (m := m) held ran
  rw [ShownBy, Sandbox.served, performed, bind_ok returns]
  obtain ⟨r, records, lines, shows, later, run⟩ : c.ShownBy (.ofResult g result) (f result)
      ({ p with context.allocator := some a' }.writing before)
      ({ p with context.allocator := some a' }.writing before) := by
    cases result with
    | ok v => exact returned v _
    | error cause => exact reported cause _ (known cause rfl)
  rw [Sandbox.logger_writing] at later
  refine ⟨r, before ++ records, lines, shows, logged.append later, ?_⟩
  rw [run, Sandbox.writing_writing, List.append_assoc]

theorem shownBy_pure {reply : Reply} {r : CReply} {q : Sandbox} (shows : c.Shows reply r []) :
    c.ShownBy reply (pure r) q q :=
  ⟨r, [], [], shows, .nil, by rw [List.append_nil, Sandbox.writing_nil]; rfl⟩

theorem shownBy_writeErrors {reply : Reply} {r : CReply} {lines : List String} {q : Sandbox}
    (shows : c.Shows reply r lines) :
    c.ShownBy reply (do Sandbox.writeErrors lines; return r) q q :=
  ⟨r, [], lines, shows, .nil, rfl⟩

theorem shownBy_log {reply : Reply} {r : CReply} {q : Sandbox} {level : Log.Level} {text : String}
    (shows : c.Shows reply r []) :
    c.ShownBy reply (do Sandbox.log level text; return r) q q :=
  ⟨r, q.logger.record level text, [], shows, q.logger.records_record level text, by
    rw [List.append_nil]
    rfl⟩

theorem shownBy_exhausted {q : Sandbox} (returns : c.ReturnsPointer)
    (other : ∀ increment, c ≠ sbrk increment) :
    c.ShownBy (.failed (.error .outOfMemory)) (ofAllocation (.error .outOfMemory)) q q :=
  shownBy_log (.exhausted returns other)

theorem alignedAlloc_shownBy {alignment size : Nat} (held : p.context.allocator = some a)
    (walks : a.Walks) (returns : c.ReturnsPointer) (other : ∀ increment, c ≠ sbrk increment)
    (asks : c.operation = .allocateAligned alignment size)
    (misaligned : ¬alignment.isPowerOfTwo → c.Misaligned)
    (calm : ∀ cause, (a.perform (.operation c.operation)).1 ≠ .failed (.panic cause)) :
    c.ShownBy (a.perform (.operation c.operation)).1 (runAlignedAlloc m alignment size) p
      (p.served a (.operation c.operation)) := by
  refine shownBy_of_results held walks calm (by rw [asks]; rfl) (fun v q => ?_) ?_
  · exact shownBy_pure (.pointer returns)
  · intro cause q known
    rw [asks, Operation.Causes] at known
    split at known <;> subst known
    · exact shownBy_exhausted returns other
    · next odd => exact shownBy_pure (.misaligned returns (misaligned odd))

theorem posix_refused_iff {alignment : Nat} :
    (!Word.isPowerOfTwo alignment || decide (alignment % 8 ≠ 0)) = true ↔
      ¬(alignment.isPowerOfTwo ∧ 8 ∣ alignment) := by
  rw [← Word.isPowerOfTwo_iff, Nat.dvd_iff_mod_eq_zero]
  cases Word.isPowerOfTwo alignment <;> simp

theorem run_of_refuses {r : CReply} (refuses : c.Refuses r) : c.run m p = (.ok r, p) := by
  cases refuses with
  | null => rfl
  | misaligned misaligned =>
      simp only [run, runPosixMemalign, posix_refused_iff.mpr misaligned, if_true]
      rfl

theorem shownBy_run (held : p.context.allocator = some a) (walks : a.Walks)
    (asked : ∀ r, ¬c.Refuses r)
    (calm : ∀ cause, (a.perform (.operation c.operation)).1 ≠ .failed (.panic cause)) :
    c.ShownBy (a.perform (.operation c.operation)).1 (c.run m) p
      (p.served a (.operation c.operation)) := by
  cases c with
  | malloc | calloc =>
      refine shownBy_of_results held walks calm rfl (fun v q => ?_) ?_
      · exact shownBy_pure (.pointer trivial)
      · rintro _ q ⟨⟩
        exact shownBy_exhausted trivial nofun
  | realloc pointer size =>
      refine shownBy_of_results held walks calm rfl (fun v q => ?_) ?_
      · exact shownBy_pure (.pointer trivial)
      · rintro _ q (rfl | rfl)
        · exact shownBy_exhausted trivial nofun
        · exact shownBy_writeErrors .notMoved
  | alignedAlloc | memalign =>
      exact alignedAlloc_shownBy held walks trivial nofun rfl (fun odd => odd) calm
  | posixMemalign alignment size =>
      have accepted : alignment.isPowerOfTwo ∧ 8 ∣ alignment :=
        not_not.mp fun misaligned => asked _ (.misaligned misaligned)
      simp only [run, runPosixMemalign, posix_refused_iff, accepted, and_self, not_true, if_false]
      refine shownBy_of_results held walks calm rfl (fun v q => ?_) fun cause q known => ?_
      · exact shownBy_pure .stored
      · obtain rfl : cause = .outOfMemory := (if_pos accepted.1).mp known
        exact shownBy_pure .notStored
  | sbrk increment =>
      refine shownBy_of_results held walks calm rfl (fun v q => ?_) ?_
      · exact shownBy_pure (.pointer trivial)
      · rintro _ q ⟨⟩
        exact shownBy_pure .breakKept
  | free pointer =>
      refine shownBy_of_results held walks calm rfl (fun v q => ?_) ?_
      · exact shownBy_pure .freed
      · rintro _ q ⟨⟩
        exact shownBy_writeErrors .notFreed
  | mallocUsableSize pointer =>
      have nonnull : pointer ≠ 0 := by
        rintro rfl
        exact asked _ .null
      simp only [run, runUsableSize, nonnull, if_false]
      refine shownBy_of_results held walks calm rfl (fun v q => ?_) ?_
      · exact shownBy_pure .size
      · rintro _ q ⟨⟩
        exact shownBy_pure .noSize

/-! ## Invalid arguments -/

/-- An alignment that is not accepted is one that the allocator or the function itself rejects. -/
theorem rejected_of_misaligned (misaligned : c.Misaligned) (asked : ∀ r, ¬c.Refuses r) :
    ∃ alignment,
      (a.perform (.operation c.operation)).1 = .failed (.error (.invalidAlignment alignment)) := by
  cases c with
  | alignedAlloc alignment size | memalign alignment size =>
      refine ⟨alignment, Allocator.failed_iff.mpr ?_⟩
      have rejected := Allocator.allocateAligned_of_misaligned (a := a) misaligned size
      exact congrArg Prod.fst (bind_error rejected)
  | posixMemalign => exact absurd (.misaligned misaligned) (asked _)
  | malloc | calloc | realloc | sbrk | free | mallocUsableSize => exact misaligned.elim

theorem Shows.misaligned_of_refuses {reply : Reply} {r : CReply} {lines : List String}
    (shows : c.Shows reply r lines) (refuses : r.RefusesArgument) : c.Misaligned := by
  cases shows with
  | misaligned _ misaligned => exact misaligned
  | _ => simp [CReply.RefusesArgument] at refuses

theorem refusesArgument_iff {r : CReply} {lines : List String} (asked : ∀ r, ¬c.Refuses r)
    (shows : c.Shows (a.perform (.operation c.operation)).1 r lines) :
    r.RefusesArgument ↔ c.Misaligned := by
  refine ⟨shows.misaligned_of_refuses, fun misaligned => ?_⟩
  obtain ⟨alignment, rejected⟩ := rejected_of_misaligned (a := a) misaligned asked
  rw [rejected] at shows
  cases shows with
  | misaligned => exact .inl rfl

/-- What a call leaves behind is what its operation was answered with, as its function shows it. -/
structure Mirrors (m : Machine) (p : Sandbox) (a : Allocator) (c : CCall Nat) : Prop where
  refused : ∀ r, c.Refuses r → c.run m p = (.ok r, p)
  performed : (∀ r, ¬c.Refuses r) →
    c.ShownBy (a.perform (.operation c.operation)).1 (c.run m) p
      (p.served a (.operation c.operation))
  misaligned : ∃ r q, c.run m p = (.ok r, q) ∧ (r.RefusesArgument ↔ c.Misaligned)

/-- The C interface is an image of the allocator, wherever the block list is well formed. -/
theorem mirrors_of_wellFormed {bs : List Block} (held : p.context.allocator = some a)
    (formed : a.WellFormed bs) (calm : (∀ r, ¬c.Refuses r) →
      ∀ cause, (a.perform (.operation c.operation)).1 ≠ .failed (.panic cause)) :
    c.Mirrors m p a where
  refused r refuses := run_of_refuses refuses
  performed asked := shownBy_run held formed.walks asked (calm asked)
  misaligned := by
    by_cases refused : ∃ r, c.Refuses r
    · obtain ⟨r, refuses⟩ := refused
      refine ⟨r, p, run_of_refuses refuses, ?_⟩
      cases refuses with
      | misaligned misaligned => exact iff_of_true (.inr rfl) misaligned
      | null => exact iff_of_false (by simp [CReply.RefusesArgument]) id
    · have asked := not_exists.mp refused
      obtain ⟨r, records, lines, shows, -, run⟩ :=
        shownBy_run (m := m) held formed.walks asked (calm asked)
      exact ⟨r, _, run, refusesArgument_iff asked shows⟩

/-- A pointer into the middle of a block cannot be moved. -/
theorem mirrors_realloc : ∃ bs, Client.tenant.allocator.WellFormed bs ∧
    (realloc (2 ^ 32 + 40) 8).Mirrors Sandbox.talkative
      { Sandbox.Forger.outset with context.allocator := some Client.tenant.allocator }
      Client.tenant.allocator := by
  obtain ⟨l, sound⟩ := Client.sound_of_honest Client.mebibyte_fresh Client.tenant_reached
  have formed := sound.realizes.wellFormed sound.books.apart
  refine ⟨l.blocks, formed, mirrors_of_wellFormed rfl formed fun _ cause => ?_⟩
  have rejected : (Client.tenant.allocator.perform (.operation (.resize (2 ^ 32 + 40) 8))).1 =
      .failed (.error (.invalidPointer (2 ^ 32 + 40))) := by
    decide +kernel
  rw [operation, rejected]
  nofun

end CCall

end Confine
