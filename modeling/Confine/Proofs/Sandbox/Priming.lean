import Confine.Proofs.Sandbox.Writing

/-! # Priming the input stream

Priming reads a byte ahead and takes that back.  A reader finds the stream as it was, with all of its
content, both indicators clear and all flags of the descriptor as they were set.  A stream that
cannot be primed is left alone, and a warning says so.
-/

namespace Confine

namespace DescriptorFlags

variable (flags others : DescriptorFlags)

/-- Flags that were saved before others were set can be restored. -/
theorem set_set_self : (flags.set others).set flags = flags := by
  apply BitVec.eq_of_getElem_eq
  intro i hi
  simp only [set, BitVec.getElem_or, BitVec.getElem_and, BitVec.getElem_not]
  cases changeable[i] <;> simp

theorem nonblocking_set : (flags.set (others ||| nonblock)).nonblocking = true := by
  have covered : ∀ i : Fin 32, nonblock[i] = true → changeable[i] = true := by decide
  rw [nonblocking, decide_eq_true_iff]
  apply BitVec.eq_of_getElem_eq
  intro i hi
  simp only [set, BitVec.getElem_or, BitVec.getElem_and, BitVec.getElem_not]
  cases asked : nonblock[i] with
  | false => simp
  | true => simp [show changeable[i] = true from covered ⟨i, hi⟩ asked]

end DescriptorFlags

namespace Input

variable {i j : Input} {pending bytes rest : List UInt8} {byte : UInt8} {fuel : Nat}

/-- What a reader still gets from the stream: the byte that was pushed back, and then what its
descriptor has. -/
def content (i : Input) : List UInt8 :=
  i.pushedBack.toList ++ match i.source with
    | .bytes pending => pending
    | _ => []

structure Clear (i : Input) : Prop where
  atEnd : i.atEnd = false
  failed : i.failed = false

/-! ## Reading to the end -/

theorem content_eq (source : i.source = .bytes pending) :
    i.content = i.pushedBack.toList ++ pending := by
  rw [content, source]

theorem getByte_of_cons (source : i.source = .bytes pending) (atEnd : i.atEnd = false)
    (left : i.content = byte :: rest) : ∃ j others, i.getByte = (.byte byte, j) ∧
      j.source = .bytes others ∧ j.atEnd = false ∧ j.content = rest := by
  rw [content_eq source] at left
  cases pushed : i.pushedBack with
  | some first =>
      rw [pushed] at left
      obtain ⟨rfl, rfl⟩ := List.cons.inj left
      exact ⟨{ i with pushedBack := none }, pending, by rw [getByte, pushed], source, atEnd,
        content_eq source⟩
  | none =>
      rw [pushed] at left
      obtain rfl : pending = byte :: rest := left
      refine ⟨{ i with source := .bytes rest, ready := true }, rest, ?_, rfl, atEnd, ?_⟩
      · simp [getByte, pushed, atEnd, source]
      · rw [content_eq rfl, pushed]
        rfl

theorem getByte_of_nil (source : i.source = .bytes pending) (atEnd : i.atEnd = false)
    (left : i.content = []) : i.getByte = (.nothing, { i with atEnd := true, ready := true }) := by
  rw [content_eq source] at left
  obtain ⟨pushed, rfl⟩ := List.append_eq_nil_iff.mp left
  rw [Option.toList_eq_nil_iff] at pushed
  simp [getByte, pushed, atEnd, source]

theorem readUpTo_eq (source : i.source = .bytes pending) (atEnd : i.atEnd = false)
    (left : i.content = bytes) (enough : bytes.length < fuel) :
    ∃ j, i.readUpTo fuel = (some bytes, j) ∧ j.atEnd = true ∧ j.content = [] := by
  -- Every read leaves one byte less, so the fuel need only exceed what is left.
  induction bytes generalizing fuel i pending with
  | nil =>
      cases fuel with
      | zero => cases enough
      | succ fuel =>
          refine ⟨{ i with atEnd := true, ready := true }, ?_, rfl, left⟩
          rw [readUpTo, getByte_of_nil source atEnd left]
  | cons byte rest ih =>
      cases fuel with
      | zero => cases enough
      | succ fuel =>
          obtain ⟨j, others, read, source', atEnd', left'⟩ := getByte_of_cons source atEnd left
          obtain ⟨k, onwards, ended, nothing⟩ := ih source' atEnd' left' (Nat.lt_of_succ_lt_succ enough)
          refine ⟨k, ?_, ended, nothing⟩
          rw [readUpTo, read]
          simp only [onwards, Option.map_some]

/-- Reading a stream to its end yields its content, and nothing is left. -/
theorem readAll_eq (source : i.source = .bytes pending) (atEnd : i.atEnd = false) :
    ∃ j, i.readAll = (some i.content, j) ∧ j.atEnd = true ∧ j.content = [] := by
  refine readUpTo_eq source atEnd rfl ?_
  rw [readBound, source, content_eq source]
  cases i.pushedBack <;> simp

/-! ## Priming -/

/-- What priming leaves of a stream that can be primed. -/
structure Restored (i j : Input) : Prop where
  clear : j.Clear
  flags? : j.flags? = i.flags?
  flags : j.flags = i.flags
  content : j.content = i.content
  source : ∀ pending, i.source = .bytes pending → ∃ others, j.source = .bytes others
  /-- No system call is left to be made before the next byte. -/
  ready : j.pushedBack.isSome = true ∨ j.ready = true

/-- A byte that was read is pushed back; where none was, an indicator was set and is cleared. -/
theorem prime_restored (clear : i.Clear) (closed : i.source ≠ .closed)
    (pathOnly : i.source ≠ .pathOnly) : ∃ j, i.prime = (none, j) ∧ Restored i j := by
  obtain ⟨source, pushedBack, atEnd, failed, flags, ready⟩ := i
  obtain ⟨rfl, rfl⟩ := clear
  have restored := flags.set_set_self (flags ||| .nonblock)
  cases source with
  | closed => exact absurd rfl closed
  | pathOnly => exact absurd rfl pathOnly
  | idle =>
      cases pushedBack with
      | some byte => exact ⟨_, rfl, ⟨rfl, rfl⟩, congrArg some restored, restored, rfl, nofun, .inl rfl⟩
      | none =>
          have failing := flags.nonblocking_set flags
          refine ⟨⟨.idle, none, false, false, flags, true⟩, ?_, ⟨rfl, rfl⟩, rfl, rfl, rfl, nofun,
            .inr rfl⟩
          simp [prime, flags?, setFlags?, getByte, clearIndicators, failing, restored]
  | bytes pending =>
      cases pushedBack with
      | some byte => exact ⟨_, rfl, ⟨rfl, rfl⟩, congrArg some restored, restored, rfl, fun _ _ => ⟨_, rfl⟩, .inl rfl⟩
      | none =>
          cases pending with
          | nil => exact ⟨_, rfl, ⟨rfl, rfl⟩, congrArg some restored, restored, rfl, fun _ _ => ⟨_, rfl⟩, .inr rfl⟩
          | cons byte rest =>
              exact ⟨_, rfl, ⟨rfl, rfl⟩, congrArg some restored, restored, rfl, fun _ _ => ⟨_, rfl⟩, .inl rfl⟩

theorem flags?_eq_none_iff : i.flags? = none ↔ i.source = .closed := by
  unfold flags?
  split <;> simp_all

theorem setFlags?_eq_none_iff {flags : DescriptorFlags} :
    i.setFlags? flags = none ↔ i.source = .closed ∨ i.source = .pathOnly := by
  unfold setFlags?
  split <;> simp_all

theorem prime_unreadable (unreadable : i.flags? = none) :
    i.prime = (some .flagsUnreadable, i) := by
  rw [prime, unreadable]

theorem prime_fixed {before : DescriptorFlags} (readable : i.flags? = some before)
    (fixed : i.setFlags? (before ||| .nonblock) = none) : i.prime = (some .flagsFixed, i) := by
  rw [prime, readable]
  simp only [fixed]

end Input

namespace Sandbox

variable {p : Sandbox} {input : Input} {pending : List UInt8}

def primed (p : Sandbox) : Sandbox :=
  (primeInput p).2

def warned (p : Sandbox) (text : String) : Sandbox :=
  p.writing (if p.logger.verbosity.admits .warn then [s!"[strictbox] [WARN] {text}"] else [])

theorem primeInput_of_primed (h : p.input.prime = (none, input)) :
    primeInput p = (.ok (), { p with input }) := by
  rw [primeInput, bind_get, h]
  rfl

theorem primeInput_of_refused {cause : PrimeRefusal} (h : p.input.prime = (some cause, p.input)) :
    primeInput p = (.ok (), p.warned cause.message) := by
  rw [primeInput, bind_get, h]
  rfl

theorem readInput_whole (source : p.input.source = .bytes pending) (clear : p.input.Clear)
    (ready : p.input.pushedBack.isSome = true ∨ p.input.ready = true) :
    (readInput p).1 = .ok p.input.content := by
  obtain ⟨j, read, -, -⟩ := Input.readAll_eq source clear.atEnd
  have setUp : (p.input.pushedBack.isNone && !p.input.ready) = false := by
    rcases ready with pushed | ready
    · rw [Option.isNone_eq_false_iff.mpr pushed, Bool.false_and]
    · rw [ready, Bool.not_true, Bool.and_false]
  rw [readInput, bind_get]
  simp only [setUp, read]
  rfl

/-- Priming the input stream goes unnoticed, unless it fails and the log says so. -/
structure PrimesUnnoticed (p : Sandbox) : Prop where
  returns : (primeInput p).1 = .ok ()
  clear : p.primed.input.Clear
  /-- All flags of the descriptor are as they were before. -/
  flags : p.primed.input.flags? = p.input.flags? ∧ p.primed.input.flags = p.input.flags
  /-- Reading to the end yields everything from the first byte on. -/
  whole : ∀ pending, p.input.source = .bytes pending →
    p.primed.input.readAll.1 = some p.input.content
  /-- So it does for the program, in strict mode and out of it. -/
  read : ∀ pending strict, p.input.source = .bytes pending →
    (readInput { p.primed with strict }).1 = .ok p.input.content
  frame : p.input.source ≠ .closed → p.input.source ≠ .pathOnly →
    p.primed = { p with input := p.primed.input }
  unreadable : p.input.flags? = none →
    p.primed = p.warned "Could not read stdin flags (os error 9), not priming stdin"
  fixed : ∀ before, p.input.flags? = some before →
    p.input.setFlags? (before ||| .nonblock) = none → p.primed = p.warned "Could not make stdin non-blocking (os error 9), not priming stdin"

theorem PrimesUnnoticed.of_restored (primed : p.input.prime = (none, input))
    (restored : Input.Restored p.input input) (closed : p.input.source ≠ .closed)
    (pathOnly : p.input.source ≠ .pathOnly) : PrimesUnnoticed p := by
  have run := primeInput_of_primed primed
  have left : p.primed = { p with input } := congrArg Prod.snd run
  refine
    { returns := congrArg Prod.fst run
      clear := left ▸ restored.clear
      flags := left ▸ ⟨restored.flags?, restored.flags⟩
      whole := ?_
      read := ?_
      frame := fun _ _ => by rw [left]
      unreadable := fun none => ?_
      fixed := fun _ _ none => ?_ }
  · intro pending source
    obtain ⟨others, source'⟩ := restored.source pending source
    obtain ⟨j, read, -, -⟩ := Input.readAll_eq source' restored.clear.atEnd
    rw [left, ← restored.content]
    exact congrArg Prod.fst read
  · intro pending strict source
    obtain ⟨others, source'⟩ := restored.source pending source
    rw [left, ← restored.content]
    exact readInput_whole (p := { p with input, strict }) source' restored.clear restored.ready
  · exact absurd (Input.flags?_eq_none_iff.mp none) closed
  · exact ((Input.setFlags?_eq_none_iff.mp none).elim closed pathOnly).elim

theorem PrimesUnnoticed.of_refused (clear : p.input.Clear)
    (refused : p.input.source = .closed ∨ p.input.source = .pathOnly) : PrimesUnnoticed p := by
  have unreadable (none : p.input.flags? = none) :=
    primeInput_of_refused (Input.prime_unreadable none)
  have fixed {before : DescriptorFlags} (readable : p.input.flags? = some before)
      (none : p.input.setFlags? (before ||| .nonblock) = none) :=
    primeInput_of_refused (Input.prime_fixed readable none)
  obtain ⟨cause, run⟩ : ∃ cause : PrimeRefusal, primeInput p = (.ok (), p.warned cause.message) := by
    cases readable : p.input.flags? with
    | none => exact ⟨_, unreadable readable⟩
    | some before => exact ⟨_, fixed readable (Input.setFlags?_eq_none_iff.mpr refused)⟩
  have same : p.primed.input = p.input := by
    rw [primed, run]
    exact input_writing p _
  have endless (pending : List UInt8) : p.input.source ≠ .bytes pending := by
    rcases refused with closed | pathOnly
    · simp [closed]
    · simp [pathOnly]
  exact
    { returns := congrArg Prod.fst run
      clear := same ▸ clear
      flags := same ▸ ⟨rfl, rfl⟩
      whole := fun pending source => absurd source (endless pending)
      read := fun pending _ source => absurd source (endless pending)
      frame := fun closed pathOnly => (refused.elim closed pathOnly).elim
      unreadable := fun none => congrArg Prod.snd (unreadable none)
      fixed := fun _ readable none => congrArg Prod.snd (fixed readable none) }

/-- A stream with both indicators clear is primed without a trace, whatever its descriptor is. -/
theorem primesUnnoticed_of_clear (p : Sandbox) (clear : p.input.Clear) : PrimesUnnoticed p := by
  by_cases refused : p.input.source = .closed ∨ p.input.source = .pathOnly
  · exact .of_refused clear refused
  · obtain ⟨closed, pathOnly⟩ := not_or.mp refused
    obtain ⟨input, primed, restored⟩ := Input.prime_restored clear closed pathOnly
    exact .of_restored primed restored closed pathOnly

/-- The byte ahead has all its bits set, as the end of a stream has in C, and the next one has none. -/
theorem primesUnnoticed_of_high_byte :
    (fresh (.bytes [0xff, 0]) true true).input.Clear ∧
      (readInput { (fresh (.bytes [0xff, 0]) true true).primed with strict := true }).1 =
        .ok [0xff, 0] :=
  ⟨⟨rfl, rfl⟩, (primesUnnoticed_of_clear _ ⟨rfl, rfl⟩).read [0xff, 0] true rfl⟩

end Sandbox

end Confine
