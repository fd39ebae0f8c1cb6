import Confine.Proofs.Sandbox.CImage
import Confine.Proofs.Sandbox.SetupFailure

/-! # What a step does with the heap

A step that calls no wrapper leaves the allocator of its process as it is, or has it answer one
request.  Where there is none yet, it may get one first, and then it has asked for the heap.
-/

namespace Confine

namespace Machine

variable (m : Machine) (a? : Option Allocator)

/-- The allocator that a process works with: the one that it has, or that of the heap which it gets.
-/
def Provides (a : Allocator) : Prop :=
  a? = some a ∨ a? = none ∧ ∃ heap, m.Grants heap ∧ a = .new heap

/-- What a process has after it came to need an allocator, or not. -/
def Supplied (b? : Option Allocator) : Prop :=
  b? = a? ∨ ∃ a, b? = some a ∧ m.Provides a? a

variable {m : Machine} {a? b? : Option Allocator} {a b : Allocator}

theorem Provides.unique (h : m.Provides a? a) (h' : m.Provides a? b) : a = b := by
  rcases h with h | ⟨h, heap, granted, rfl⟩ <;> rcases h' with h' | ⟨h', heap', granted', rfl⟩
  · exact Option.some.inj (h.symm.trans h')
  · cases h.symm.trans h'
  · cases h.symm.trans h'
  · exact congrArg Allocator.new (Except.ok.inj (granted.symm.trans granted'))

theorem Provides.of_some (h : m.Provides (some a) b) : a = b :=
  Provides.unique (.inl rfl) h

theorem Supplied.provides (h : m.Supplied a? (some a)) : m.Provides a? a := by
  rcases h with same | ⟨_, same, provides⟩
  · exact .inl same.symm
  · exact Option.some.inj same ▸ provides

theorem Supplied.reserve {heap : Heap} (h : m.Supplied a? none) (granted : m.Grants heap) :
    m.Supplied a? (some (.new heap)) := by
  rcases h with same | ⟨_, same, -⟩
  · exact .inr ⟨_, rfl, .inr ⟨same.symm, heap, granted, rfl⟩⟩
  · cases same

end Machine

/-- The step is a call that is answered without the allocator. -/
def Step.Refused (m : Machine) (p : Sandbox) (step : Step) : Prop :=
  ∃ c r, step = .call c ∧ (c.map (·.resolve m.heapBase p.results)).Refuses r

/-- What the step asks of the allocator, and does not get refused before. -/
def Step.Asks (m : Machine) (p : Sandbox) (step : Step) (request : Request Nat) : Prop :=
  step.request? m p = some request ∧ ¬step.Refused m p

theorem Step.not_asks {m : Machine} {p : Sandbox} {step : Step}
    (h : step.request? m p = none) (request : Request Nat) : ¬step.Asks m p request := by
  rintro ⟨asked, -⟩
  rw [h] at asked
  cases asked

/-- What a step in the process `p` that returns this leaves of the allocator. -/
inductive Step.Leaves (m : Machine) (p : Sandbox) (step : Step) (result : StepResult) :
    Option Allocator → Prop
  | idle {a? : Option Allocator} (supplied : m.Supplied p.context.allocator a?)
      (unasked : ∀ request, ¬step.Asks m p request) (silent : result.address? = none) :
      Leaves m p step result a?
  /-- An address that is returned is the answer of the allocator. -/
  | served {a : Allocator} {request : Request Nat} (asked : step.Asks m p request)
      (provides : m.Provides p.context.allocator a)
      (told : ∀ x, result.address? = some x → (a.perform request).1 = .address (some x)) :
      Leaves m p step result (some (a.perform request).2)

namespace Step.Leaves

variable {m : Machine} {p : Sandbox} {step : Step} {result : StepResult} {a? : Option Allocator}
  {a : Allocator}

/-- An allocator that is there stays, but for what it is asked. -/
theorem of_some (h : step.Leaves m p result a?) (present : p.context.allocator = some a) :
    a? = some a ∨ ∃ request, step.Asks m p request ∧ a? = some (a.perform request).2 := by
  cases h with
  | idle supplied =>
      rw [present] at supplied
      rcases supplied with same | ⟨b, same, provides⟩
      · exact .inl same
      · exact .inl (provides.of_some ▸ same)
  | served asked provides =>
      rw [present] at provides
      exact .inr ⟨_, asked, by rw [provides.of_some]⟩

theorem isSome_of_asks {request : Request Nat} (h : step.Leaves m p result a?)
    (asks : step.Asks m p request) : a?.isSome = true := by
  cases h with
  | idle _ unasked => exact absurd asks (unasked request)
  | served => rfl

theorem told {x : Nat} (h : step.Leaves m p result a?) (known : result.address? = some x) :
    ∃ a request, step.Asks m p request ∧ m.Provides p.context.allocator a ∧
      a? = some (a.perform request).2 ∧ (a.perform request).1 = .address (some x) := by
  cases h with
  | idle _ _ silent => cases silent.symm.trans known
  | served asked provides told => exact ⟨_, _, asked, provides, rfl, told x known⟩

end Step.Leaves

namespace Sandbox

/-- The process comes of `p`, and its allocator satisfies `C`. -/
structure Since (m : Machine) (C : Option Allocator → Prop) (p q : Sandbox) : Prop where
  allocator : C q.context.allocator
  grown : p.trace <:+ q.trace
  requested : q.context.allocator.isSome → p.context.allocator.isSome ∨ heapRequest m ∈ q.trace

variable {m : Machine} {p q : Sandbox} {α β : Type} {a : Allocator}
  {C D : Option Allocator → Prop}

namespace Since

theorem refl (h : C p.context.allocator) : Since m C p p :=
  ⟨h, List.suffix_refl _, .inl⟩

theorem still {r : Sandbox} (h : Since m C p q) (still : Still q r) : Since m C p r where
  allocator := still.context ▸ h.allocator
  grown := still.trace ▸ h.grown
  requested := by
    rw [still.context, still.trace]
    exact h.requested

theorem imp (h : Since m C p q) (weaker : ∀ a?, C a? → D a?) : Since m D p q :=
  { h with allocator := weaker _ h.allocator }

theorem push (h : Since m C p q) (e : Event) : Since m C p { q with trace := e :: q.trace } where
  allocator := h.allocator
  grown := h.grown.trans (List.suffix_cons _ _)
  requested present := (h.requested present).imp_right (List.mem_cons_of_mem e)

theorem swap {b : Allocator} (h : Since m C p q) (present : q.context.allocator = some a) :
    Since m (· = some b) p { q with context := { q.context with allocator := some b } } where
  allocator := rfl
  grown := h.grown
  requested _ := h.requested (present ▸ rfl)

/-- Apart from requests to the allocator, steps keep what the reservation of the heap keeps. -/
theorem steady (p : Sandbox)
    (reserving : ∀ heap, C none → m.Grants heap → C (some (.new heap))) :
    Steady m (Since m C p) fun _ _ => True where
  still _ _ h := h.still
  closed _ _ _ _ _ := trivial
  killed _ _ := trivial
  never _ _ := trivial
  left _ _ _ := trivial
  panicked _ _ _ := trivial
  stepped _ result h := h.push (.step result)
  printed _ text h := { h.push (.printed text) with }
  reserved _ heap h missing granted := {
    allocator := reserving heap (missing ▸ h.allocator) granted
    grown := (h.push (heapRequest m)).grown
    requested := fun _ => .inr List.mem_cons_self }
  refused _ _ _ _ _ := trivial

end Since

/-- The process has come to need the allocator, or not, since `p`. -/
abbrev Supply (m : Machine) (p q : Sandbox) : Prop :=
  Since m (m.Supplied p.context.allocator) p q

theorem supply_of_eq (q : Sandbox) (eq : q = p) : Supply m p q :=
  eq ▸ .refl (.inl rfl)

theorem supply_steady (m : Machine) (p : Sandbox) : Steady m (Supply m p) fun _ _ => True :=
  Since.steady p fun _ => Machine.Supplied.reserve

theorem fixed_steady (p : Sandbox) (a : Allocator) :
    Steady m (Since m (· = some a) p) fun _ _ => True :=
  Since.steady p nofun

/-! ## Operations of the allocator -/

theorem provision_supply (p : Sandbox) : Contract (Supply m p) (provision m)
    (fun a q => m.Provides p.context.allocator a ∧ Supply m p q ∧ q.context.allocator = some a)
    fun _ _ => True :=
  (supply_steady m p).provision.imp fun _ _ h => ⟨(h.2 ▸ h.1.allocator).provides, h⟩

theorem onAllocator_since (p : Sandbox) (action : Allocator.Action α) :
    Contract (Supply m p) (onAllocator m action)
      (fun r q => ∃ a, m.Provides p.context.allocator a ∧ (action a).1 = r.mapError .error ∧
        Since m (· = some (action a).2) p q) fun _ _ => True := by
  refine .bind (provision_supply p) fun before => ?_
  rcases run : action before with ⟨outcome, after⟩
  have swapped : Contract (fun q => m.Provides p.context.allocator before ∧ Supply m p q ∧
      q.context.allocator = some before) (modifyContext ({ · with allocator := some after }))
      (fun _ q => m.Provides p.context.allocator before ∧ Since m (· = some after) p q)
      fun _ _ => True :=
    .modify fun q h => ⟨h.1, h.2.1.swap h.2.2⟩
  have logged : ∀ growths : List Growth,
      Contract (fun q => m.Provides p.context.allocator before ∧ Since m (· = some after) p q)
        (growths.forM fun growth => log .trace (growthMessage growth))
        (fun _ q => m.Provides p.context.allocator before ∧ Since m (· = some after) p q)
        fun _ _ => True :=
    fun _ => .given fun provides => ((fixed_steady p after).idle (.forM fun _ => log_idle _ _)).imp
      fun _ _ h => ⟨provides, h⟩
  refine .bind swapped fun _ => .bind (logged _) fun _ => ?_
  split
  · exact .pure fun q h => ⟨before, h.1, by rw [run]; rfl, by rw [run]; exact h.2⟩
  · exact .pure fun q h => ⟨before, h.1, by rw [run]; rfl, by rw [run]; exact h.2⟩
  · exact .given fun _ => (fixed_steady p after).panic _
  · exact .throw fun _ _ => trivial

/-- The allocator carried out the operation, and an address that is told is its answer. -/
def Answered (m : Machine) (p : Sandbox) (request : Request Nat) (told : Option Nat)
    (q : Sandbox) : Prop :=
  ∃ a, m.Provides p.context.allocator a ∧ Since m (· = some (a.perform request).2) p q ∧
    ∀ x, told = some x → (a.perform request).1 = .address (some x)

/-- A computation tells an address only if that is what the operation returned. -/
def Tells (result : Except AllocError α) (g : α → Reply) (told : β → Option Nat) (x : Run β) :
    Prop :=
  ∀ p, Contract (Still p) x
    (fun b q => (∀ address, told b = some address →
      ∃ v, result = .ok v ∧ g v = .address (some address)) ∧ Still p q) fun _ _ => True

theorem onAllocator_answered {op : Operation Nat} {action : Allocator.Action α} {g : α → Reply}
    {f : Except AllocError α → Run β} {told : β → Option Nat}
    (shape : op.action = action >>= fun v => pure (g v)) (tells : ∀ r, Tells r g told (f r)) :
    Contract (Supply m p) (onAllocator m action >>= f)
      (fun b => Answered m p (.operation op) (told b)) fun _ _ => True := by
  refine .bind (onAllocator_since p action) fun r => ?_
  rintro q ⟨a, provides, ran, since⟩
  refine ((tells r q).imp fun b q' h => ⟨a, provides, ?_, fun x address => ?_⟩) q (.refl q)
  · rw [Allocator.perform_operation_snd, shape, Allocator.map_snd]
    exact since.still h.2
  · obtain ⟨v, rfl, eq⟩ := h.1 x address
    have whole : op.action a = (.ok (g v), (action a).2) := by
      rw [shape]
      exact bind_ok (Prod.ext ran rfl)
    rw [Allocator.perform, whole]
    exact eq

section Tells

variable {result : Except AllocError α} {g : α → Reply} {told : β → Option Nat} {b : β}

theorem Tells.pure (h : ∀ address, told b = some address →
    ∃ v, result = .ok v ∧ g v = .address (some address)) : Tells result g told (Pure.pure b) :=
  fun _ => .pure fun _ still => ⟨h, still⟩

theorem Tells.silent (h : told b = none) : Tells result g told (Pure.pure b) :=
  .pure fun _ known => absurd (h.symm.trans known) (Option.some_ne_none _).symm

theorem Tells.after {x : Run PUnit} (idle : Idle (fun _ => False) x) {y : Run β}
    (h : Tells result g told y) : Tells result g told (do x; y) :=
  fun p => .bind (idle.returns fun _ _ => Still.trans) fun _ => h p

end Tells

theorem eq_of_address? {v x : Nat} (known : (CValue.pointer v).address? = some x) :
    v = x ∧ v ≠ 0 := by
  simp only [CValue.address?, Bool.or_eq_true, decide_eq_true_eq] at known
  split at known
  · cases known
  · next proper => exact ⟨Option.some.inj known, fun zero => proper (.inl zero)⟩

theorem ofAllocation_tells (result : Except AllocError Nat) :
    Tells result (fun v => .address (some v)) (·.value.address?) (CCall.ofAllocation result) := by
  cases result with
  | error cause => exact .after (log_idle _ _) (.silent rfl)
  | ok v => exact .pure fun _ known => ⟨v, rfl, by rw [(eq_of_address? known).1]⟩

theorem alignedAlloc_answered (alignment size : Nat) :
    Contract (Supply m p) (CCall.runAlignedAlloc m alignment size)
      (fun r => Answered m p (.operation (.allocateAligned alignment size)) r.value.address?)
      fun _ _ => True := by
  refine onAllocator_answered rfl fun r => ?_
  split
  · exact .silent rfl
  · exact ofAllocation_tells _

theorem silent_of_refuses {c : CCall Nat} {r : CReply} (refuses : c.Refuses r) :
    r.value.address? = none := by
  cases refuses <;> rfl

/-- A call that is not refused carries out its operation. -/
theorem call_answered (p : Sandbox) (c : CCall Nat) (asked : ∀ r, ¬c.Refuses r) :
    Contract (Supply m p) (c.run m)
      (fun r => Answered m p (.operation c.operation) r.value.address?) fun _ _ => True := by
  cases c with
  | malloc | calloc => exact onAllocator_answered rfl ofAllocation_tells
  | alignedAlloc | memalign => exact alignedAlloc_answered _ _
  | realloc pointer size =>
      refine onAllocator_answered rfl fun r => ?_
      split
      · next moved =>
          refine .pure fun x known => ⟨moved, rfl, ?_⟩
          obtain ⟨eq, nonnull⟩ := eq_of_address? known
          cases moved with
          | none => exact absurd rfl nonnull
          | some address => exact congrArg (Reply.address ∘ some) eq
      · exact .after (writeErrors_idle _) (.silent rfl)
      · next cause _ =>
          cases cause <;> exact .after (log_idle _ _) (.silent rfl)
  | posixMemalign alignment size =>
      have accepted : ¬(!Word.isPowerOfTwo alignment || decide (alignment % 8 ≠ 0)) = true :=
        fun refused => asked _ (.misaligned (CCall.posix_refused_iff.mp refused))
      rw [CCall.run, CCall.runPosixMemalign, if_neg accepted]
      refine onAllocator_answered rfl fun r => ?_
      split
      · next v => exact .pure fun _ known => ⟨v, rfl, congrArg Reply.address known⟩
      · exact .silent rfl
      · exact .silent rfl
  | sbrk increment =>
      refine onAllocator_answered rfl fun r => ?_
      split
      · next v =>
          exact .pure fun _ known => ⟨v, rfl, by rw [(eq_of_address? known).1]⟩
      · exact .silent rfl
  | free pointer =>
      refine onAllocator_answered rfl fun r => ?_
      split
      · exact .silent rfl
      · exact .after (writeErrors_idle _) (.silent rfl)
  | mallocUsableSize pointer =>
      have nonnull : pointer ≠ 0 := by
        rintro rfl
        exact asked _ .null
      rw [CCall.run, CCall.runUsableSize, if_neg nonnull]
      refine onAllocator_answered rfl fun r => ?_
      split <;> exact .silent rfl

/-! ## Steps -/

theorem address?_eq_some {reply : Reply} {x : Nat} (h : reply.address? = some x) :
    reply = .address (some x) := by
  cases reply <;> cases h
  rfl

theorem answer_answered (p : Sandbox) (request : Request Operand) :
    Contract (· = p) (answer m request)
      (fun result => Answered m p (request.map (·.resolve m.heapBase p.results)) result.address?)
      fun _ _ => True := by
  refine .get_bind fun q eq => ?_
  rw [eq]
  dsimp only
  split
  · next op resolved =>
      rw [resolved]
      refine .bind ((onAllocator_since p op.action).strengthen supply_of_eq) fun r => ?_
      have replied (reply : Reply) : Contract (Answered m p (.operation op) reply.address?)
          (do return StepResult.reply reply (← provision m))
          (fun result => Answered m p (.operation op) result.address?) fun _ _ => True := by
        rintro q ⟨a, provides, since, told⟩
        exact Contract.bind (fixed_steady p _).provision
          (fun _ => .pure fun _ h => ⟨a, provides, h.1, told⟩) q since
      split
      · next reply =>
          refine (replied reply).strengthen ?_
          rintro q ⟨a, provides, ran, since⟩
          refine ⟨a, provides, by rwa [Allocator.perform_operation_snd], fun x known => ?_⟩
          have whole : op.action a = (.ok reply, (op.action a).2) := Prod.ext ran rfl
          rw [Allocator.perform, whole]
          exact address?_eq_some known
      · next cause =>
          refine (replied (.failed (.error cause))).strengthen ?_
          rintro q ⟨a, provides, -, since⟩
          exact ⟨a, provides, by rwa [Allocator.perform_operation_snd], fun _ told => by cases told⟩
  · next access resolved =>
      rw [resolved]
      have accessed (a : Allocator) : Contract (fun q => m.Provides p.context.allocator a ∧
          Supply m p q ∧ q.context.allocator = some a)
          (modifyContext ({ · with allocator := some (a.perform (.access access)).2 }))
          (fun _ q => m.Provides p.context.allocator a ∧
            Since m (· = some (a.perform (.access access)).2) p q) fun _ _ => True :=
        .modify fun q h => ⟨h.1, h.2.1.swap h.2.2⟩
      exact .bind ((provision_supply p).strengthen supply_of_eq) fun a =>
        .bind (accessed a) fun _ => .pure fun q h => ⟨a, h.1, h.2, fun x => address?_eq_some⟩

section Leaves

variable {step : Step} {result : StepResult}

theorem Answered.leaves {request : Request Nat} (asked : step.Asks m p request)
    (h : Answered m p request result.address? q) : Since m (step.Leaves m p result) p q := by
  obtain ⟨a, provides, since, told⟩ := h
  exact since.imp fun _ eq => eq ▸ .served asked provides told

theorem leaves_of_supply (unasked : step.request? m p = none) (silent : result.address? = none)
    (h : Supply m p q) : Since m (step.Leaves m p result) p q :=
  h.imp fun _ supplied => .idle supplied (Step.not_asks unasked) silent

theorem quiet_leaves {x : Run α} (unasked : step.request? m p = none)
    (silent : result.address? = none)
    (h : Contract (Supply m p) x (fun _ => Supply m p) fun _ _ => True) :
    Contract (· = p) (do let _ ← x; return result)
      (fun result => Since m (step.Leaves m p result) p) fun _ _ => True :=
  .bind (h.strengthen supply_of_eq) fun _ => .pure fun _ => leaves_of_supply unasked silent

theorem access_leaves (w : Wrappers) (p : Sandbox) (a : Access Operand) :
    Contract (· = p) (perform m w (.access a))
      (fun result => Since m ((Step.access a).Leaves m p result) p) fun _ _ => True := by
  refine .get_bind fun q eq => ?_
  rw [eq]
  dsimp only
  split
  · next missing =>
      have unasked : (Step.access a).request? m p = none := by rw [Step.request?, missing]; rfl
      exact .pure fun q eq => leaves_of_supply unasked rfl (supply_of_eq q eq)
  · next b present =>
      refine .bind (.modify fun q eq => ?_) fun _ => .pure fun _ h => h
      have asked : (Step.access a).Asks m p
          (.access (a.map (·.resolve m.heapBase p.results))) := by
        refine ⟨?_, by rintro ⟨_, _, ⟨⟩, _⟩⟩
        rw [Step.request?, present]
        rfl
      exact ((supply_of_eq q eq).swap (eq ▸ present)).imp fun _ eq =>
        eq ▸ .served asked (.inl present) fun _ told => by cases told

/-- A call is refused before the allocator is needed, or it is answered by the allocator. -/
theorem call_leaves (w : Wrappers) (p : Sandbox) (c : CCall Operand) :
    Contract (· = p) (perform m w (.call c))
      (fun result => Since m ((Step.call c).Leaves m p result) p) fun _ _ => True := by
  refine .get_bind fun q eq => ?_
  rw [eq]
  by_cases refused : (Step.call c).Refused m p
  · have unasked : ∀ request, ¬(Step.call c).Asks m p request := fun _ asked => asked.2 refused
    obtain ⟨_, r, ⟨⟩, refuses⟩ := refused
    have returned : Contract (· = p) ((c.map (·.resolve m.heapBase p.results)).run m)
        (fun r' q => r' = r ∧ q = p) fun _ _ => True := by
      rintro _ rfl
      rw [CCall.run_of_refuses refuses]
      exact ⟨rfl, rfl⟩
    refine .bind returned fun _ => .pure fun q h => ?_
    rw [h.1]
    exact (supply_of_eq q h.2).imp fun _ supplied =>
      .idle supplied unasked (silent_of_refuses refuses)
  · have asked : (Step.call c).Asks m p _ := ⟨rfl, refused⟩
    refine .bind ((call_answered p _ fun r refuses => refused ⟨c, r, rfl, refuses⟩).strengthen
      supply_of_eq) fun r => .pure fun q h => h.leaves asked

/-- A step that calls no wrapper. -/
theorem perform_leaves (w : Wrappers) (hstep : step.wrapperCall? = none) (p : Sandbox) :
    Contract (· = p) (perform m w step) (fun result => Since m (step.Leaves m p result) p)
      fun _ _ => True := by
  have steady := supply_steady m p
  cases step with
  | request request =>
      have asked : (Step.request request).Asks m p _ := ⟨rfl, by rintro ⟨_, _, ⟨⟩, _⟩⟩
      exact (answer_answered p request).imp fun _ _ h => h.leaves asked
  | access a => exact access_leaves w p a
  | call c => exact call_leaves w p c
  | callInit | callMain => cases hstep
  | context =>
      exact .read fun q => .pure fun r eq => leaves_of_supply rfl rfl (supply_of_eq r eq)
  | provision => exact quiet_leaves rfl rfl (.discard (steady.provision.imp fun _ _ h => h.1))
  | heapUsage => exact quiet_leaves rfl rfl steady.logHeapUsage
  | initLogger verbosity => exact quiet_leaves rfl rfl (steady.idle (initLogger_idle _))
  | log level text =>
      exact .bind ((steady.idle (log_idle _ _)).strengthen supply_of_eq) fun _ =>
        .read fun _ => .pure fun _ => leaves_of_supply rfl rfl
  | reenter => exact (steady.panic _).strengthen supply_of_eq
  | print text => exact quiet_leaves rfl rfl (steady.print _)
  | readInput =>
      exact .bind ((steady.idle (readInput_idle (.inl rfl) (.inr rfl))).strengthen supply_of_eq)
        fun _ => .pure fun _ => leaves_of_supply rfl rfl
  | inputFlags =>
      exact .bind (steady.systemCall.strengthen supply_of_eq) fun _ => .read fun _ =>
        .pure fun _ => leaves_of_supply rfl rfl
  | forbidden => exact quiet_leaves rfl rfl steady.systemCall
  | exit status =>
      exact .bind (steady.logHeapUsage.strengthen supply_of_eq) fun _ => steady.restrictedExit _

end Leaves

theorem record_contract (number : Nat) (result : StepResult) (p : Sandbox) :
    Contract (· = p) (record number result) (fun _ q => q.context = p.context ∧
      q.trace = .step result :: p.trace) fun _ _ => True := by
  have emitted : Contract (fun q => q.context = p.context ∧ q.trace = p.trace) (emit (.step result))
      (fun _ q => q.context = p.context ∧ q.trace = .step result :: p.trace) fun _ _ => True :=
    .emit fun q h => ⟨h.1, congrArg (.step result :: ·) h.2⟩
  have start : ∀ q, q = p → q.context = p.context ∧ q.trace = p.trace :=
    fun q eq => eq ▸ ⟨rfl, rfl⟩
  unfold record
  split
  · exact .bind (.modify start) fun _ => emitted
  · exact emitted.strengthen start

theorem leaves_of_counted {step : Step} {result : StepResult} {a? : Option Allocator}
    (h : step.Leaves m p.counted result a?) : step.Leaves m p result a? := by
  have same (request : Request Nat) : step.Asks m p.counted request ↔ step.Asks m p request := by
    cases step <;> exact .rfl
  cases h with
  | idle supplied unasked silent =>
      exact .idle supplied (fun request => mt (same request).mpr (unasked request)) silent
  | served asked provides told => exact .served ((same _).mp asked) provides told

/-- A step that calls no wrapper was carried out: what it returned is the last event. -/
structure Took (m : Machine) (p : Sandbox) (step : Step) (result : StepResult) (past : List Event)
    (q : Sandbox) : Prop where
  trace : q.trace = .step result :: past
  grown : p.trace <:+ past
  leaves : step.Leaves m p result q.context.allocator
  requested : q.context.allocator.isSome → p.context.allocator.isSome ∨ heapRequest m ∈ past

theorem takeStep_took {w : Wrappers} {step : Step} (hstep : step.wrapperCall? = none)
    (taken : takeStep m w step p = (.ok (), q)) : ∃ result past, Took m p step result past q := by
  have recorded : Contract (· = p.counted) (perform m w step >>= record p.nextStep)
      (fun _ q => ∃ result past, Took m p step result past q) fun _ _ => True := by
    refine .bind (perform_leaves w hstep p.counted) fun result => ?_
    intro r since
    refine ((record_contract p.nextStep result r).imp fun _ q h => ?_) r rfl
    exact ⟨result, r.trace, h.2, since.grown, h.1 ▸ leaves_of_counted since.allocator,
      h.1 ▸ since.requested⟩
  exact recorded.returned rfl ((takeStep_eq step p).symm.trans taken)

end Sandbox

end Confine
