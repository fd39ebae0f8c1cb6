import Confine.Proofs.Sandbox.Contract

/-! # Conditions that the steps of a program keep

A step that calls no wrapper may reserve the heap, print, add the record of what it returned, and
end the process in a few ways.  Nothing else that it does decides anything, apart from requests to
the allocator, so a condition that these few changes keep is kept by every such step.
-/

namespace Confine

/-- The wrapper that the step calls. -/
def Step.wrapperCall? : Step → Option WrapperCall
  | .callInit => some .init
  | .callMain => some .main
  | _ => none

/-- The operation that the call asks of the allocator, unless it is refused before. -/
def CCall.operation {P : Type} : CCall P → Operation P
  | malloc size => .allocate size
  | calloc count size => .zeroAllocate count size
  | realloc pointer size => .resize pointer size
  | alignedAlloc alignment size | memalign alignment size | posixMemalign alignment size =>
    .allocateAligned alignment size
  | sbrk increment => .sbrk increment
  | free pointer => .free pointer
  | mallocUsableSize pointer => .usableSize pointer

/-- What the step asks of the allocator.  Memory is not accessed before there is a heap. -/
def Step.request? (m : Machine) (p : Sandbox) : Step → Option (Request Nat)
  | .request r => some (r.map (·.resolve m.heapBase p.results))
  | .access a => p.context.allocator.map fun _ => .access (a.map (·.resolve m.heapBase p.results))
  | .call c => some (.operation (c.map (·.resolve m.heapBase p.results)).operation)
  | _ => none

namespace Sandbox

def served (p : Sandbox) (a : Allocator) (request : Request Nat) : Sandbox :=
  { p with context := { p.context with allocator := some (a.perform request).2 } }

/-- A request takes a process from `pre` to `post`. -/
def Serves (pre : Sandbox → Prop) (request : Request Nat) (post : Sandbox → Prop) : Prop :=
  ∀ p a, pre p → p.context.allocator = some a → post (p.served a request)

def counted (p : Sandbox) : Sandbox :=
  { p with nextStep := p.nextStep + 1 }

theorem Still.counted (p : Sandbox) : Still p p.counted :=
  ⟨rfl, rfl, rfl, rfl, rfl⟩

/-- Apart from requests to the allocator, the steps of a program keep `pre`, and a process that they
end ends in `ended`. -/
structure Steady (m : Machine) (pre : Sandbox → Prop) (ended : Ending → Sandbox → Prop) :
    Prop where
  still : ∀ p q, pre p → Still p q → pre q
  closed : ∀ e p q, ended e p → Still p q → ended e q
  /-- The system ends the process. -/
  killed : ∀ p, pre p → ended (.killed killSignal) p
  /-- The process goes on for ever. -/
  never : ∀ p, pre p → ended .never p
  /-- The process flushes its output and exits. -/
  left : ∀ p status, pre p → ended (.exited status) { p with output := p.output.flush }
  panicked : ∀ p cause, pre p →
    ended (.exited ExitReason.unreachable.status) { p with trace := .panic cause :: p.trace }
  stepped : ∀ p result, pre p → pre { p with trace := .step result :: p.trace }
  printed : ∀ p text, pre p →
    pre { p with output := p.output.put text, trace := .printed text :: p.trace }
  reserved : ∀ p heap, pre p → p.context.allocator = none →
    reservation m m.environment.requestedHeapSize = .ok heap →
    pre { p with
      trace := .reserveHeap m.environment.requestedHeapSize :: p.trace
      context := { p.context with allocator := some (.new heap) } }
  refused : ∀ p cause, pre p → p.context.allocator = none →
    reservation m m.environment.requestedHeapSize = .error cause →
    ended (exitEnding p.strict ExitReason.heapReservation.status)
      { p with
        trace := .fatal ExitReason.heapReservation.status ::
          .reserveHeap m.environment.requestedHeapSize :: p.trace }

namespace Steady

variable {m : Machine} {pre : Sandbox → Prop} {ended : Ending → Sandbox → Prop} {α β : Type}

/-- How an idle computation of a step may end the process. -/
def Stops (e : Ending) : Prop :=
  e = .killed killSignal ∨ e = .never

theorem idle {x : Run α} (h : Steady m pre ended) (hx : Idle Stops x) :
    Contract pre x (fun _ => pre) ended := by
  refine hx.keeps h.still ?_
  rintro e p hp (rfl | rfl)
  · exact h.killed p hp
  · exact h.never p hp

theorem systemCall (h : Steady m pre ended) : Contract pre systemCall (fun _ => pre) ended :=
  systemCall_keeps h.still h.killed

theorem print (h : Steady m pre ended) (text : String) :
    Contract pre (print text) (fun _ => pre) ended := by
  refine .read fun p => ?_
  extract_lets put
  have added : Contract pre (put ()) (fun _ => pre) ended :=
    fun p hp => h.printed p text hp
  split
  · exact .bind h.systemCall fun _ => added
  · exact added

theorem restrictedExit {post : α → Sandbox → Prop} (h : Steady m pre ended) (status : Int) :
    Contract pre (restrictedExit status) post ended :=
  fun p hp => h.left p _ hp

theorem panic {post : α → Sandbox → Prop} (h : Steady m pre ended) (cause : Panic) :
    Contract pre (panic m cause) post ended := by
  unfold Sandbox.panic
  split
  · exact fun p hp => h.panicked p cause hp
  · exact .bind (h.idle (writeErrors_idle _)) fun _ => h.restrictedExit _

theorem logHeapUsage (h : Steady m pre ended) :
    Contract pre (logHeapUsage m) (fun _ => pre) ended := by
  refine .read fun p => ?_
  split
  · exact .pure fun _ hp => hp
  · split
    · exact .pure fun _ hp => hp
    · split
      · exact h.panic _
      · exact .throw h.never
      · exact h.idle (log_idle _ _)

/-! ## The heap -/

theorem reserveHeap (h : Steady m pre ended) :
    Contract (fun p => pre p ∧ p.context.allocator = none) (reserveHeap m)
      (fun a p => pre p ∧ p.context.allocator = some a) ended := by
  rintro p ⟨hp, missing⟩
  let reserving : Sandbox :=
    { p with trace := .reserveHeap m.environment.requestedHeapSize :: p.trace }
  have requested : Contract (· = p) (emit (.reserveHeap m.environment.requestedHeapSize))
      (fun _ => Still reserving) ended :=
    .emit fun q eq => eq ▸ .refl _
  refine Contract.bind requested (fun _ => ?_) p rfl
  split
  · next cause eq =>
      refine (fatal_contract _ reserving).consequence (fun _ hq => hq) (fun _ _ h => h) ?_
      rintro e q ⟨rfl, hq⟩
      exact h.closed _ _ q (h.refused p cause hp missing eq) hq
  · next heap eq =>
      refine .bind ((log_idle _ _).returns fun _ _ => Still.trans) fun _ =>
        .bind (.modify fun q hq => ?_) fun _ => .pure fun _ hr => hr
      refine ⟨h.still _ _ (h.reserved p heap hp missing eq) ?_, rfl⟩
      exact { hq with context := by rw [hq.context] }

theorem provision (h : Steady m pre ended) :
    Contract pre (provision m) (fun a p => pre p ∧ p.context.allocator = some a) ended := by
  refine .get_bind fun p hp => ?_
  cases ha : p.context.allocator with
  | some a => exact .pure fun q eq => eq ▸ ⟨hp, ha⟩
  | none =>
      have started : ∀ q, Still p q → pre q ∧ q.context.allocator = none :=
        fun q hq => ⟨h.still p q hp hq, hq.context ▸ ha⟩
      have reserve := h.reserveHeap.strengthen started
      dsimp only
      split
      · exact .bind (((log_idle _ _).returns fun _ _ => Still.trans).started_in (.refl p))
          fun _ => reserve
      · exact reserve.started_in (.refl p)

section Requests

variable {post : Sandbox → Prop} (h : Steady m pre ended) (h' : Steady m post ended)

include h h'

theorem onAllocator {action : Allocator.Action α} {op : Operation Nat}
    (same : ∀ a, (action a).2 = (op.action a).2) (serves : Serves pre (.operation op) post) :
    Contract pre (onAllocator m action) (fun _ => post) ended := by
  have swap (before : Allocator) : Contract (fun p => pre p ∧ p.context.allocator = some before)
      (modifyContext ({ · with allocator := some (action before).2 })) (fun _ => post) ended := by
    refine .modify fun p hp => ?_
    rw [same, ← Allocator.perform_operation_snd]
    exact serves p before hp.1 hp.2
  refine .bind h.provision fun before => .bind (swap before) fun _ =>
    .bind (h'.idle (.forM fun _ => log_idle _ _)) fun _ => ?_
  split
  · exact .pure fun _ hp => hp
  · exact .pure fun _ hp => hp
  · exact h'.panic _
  · exact .throw h'.never

/-- What is done with the outcome of an operation is idle everywhere. -/
theorem onAllocator_bind {action : Allocator.Action α} {op : Operation Nat}
    {f : Except AllocError α → Run β} (same : ∀ a, (action a).2 = (op.action a).2)
    (serves : Serves pre (.operation op) post) (hf : ∀ r, Idle Stops (f r)) :
    Contract pre (Sandbox.onAllocator m action >>= f) (fun _ => post) ended :=
  .bind (h.onAllocator h' same serves) fun r => h'.idle (hf r)

end Requests

theorem ofAllocation_idle (result : Except AllocError Nat) :
    Idle Stops (CCall.ofAllocation result) := by
  cases result with
  | ok address => exact .pure
  | error cause => exact (log_idle _ _).bind fun _ => .pure

section Requests

variable {post : Sandbox → Prop} (h : Steady m pre ended) (h' : Steady m post ended)

include h h'

theorem alignedAlloc (alignment size : Nat)
    (serves : Serves pre (.operation (.allocateAligned alignment size)) post) :
    Contract pre (CCall.runAlignedAlloc m alignment size) (fun _ => post) ended := by
  refine h.onAllocator_bind h' (fun a => (Allocator.map_snd _).symm) serves fun r => ?_
  split
  · exact .pure
  · exact ofAllocation_idle _

theorem call (c : CCall Nat) (weaken : ∀ p, pre p → post p)
    (serves : Serves pre (.operation c.operation) post) :
    Contract pre (c.run m) (fun _ => post) ended := by
  cases c with
  | malloc | calloc =>
      exact h.onAllocator_bind h' (fun a => (Allocator.map_snd _).symm) serves ofAllocation_idle
  | alignedAlloc | memalign => exact h.alignedAlloc h' _ _ serves
  | realloc pointer size =>
      refine h.onAllocator_bind h' (fun a => (Allocator.map_snd _).symm) serves fun r => ?_
      split
      · exact .pure
      · exact (writeErrors_idle _).bind fun _ => .pure
      · exact ofAllocation_idle _
  | posixMemalign alignment size =>
      simp only [CCall.run, CCall.runPosixMemalign]
      split
      · exact .pure weaken
      · refine h.onAllocator_bind h' (fun a => (Allocator.map_snd _).symm) serves fun r => ?_
        split <;> exact .pure
  | sbrk increment =>
      refine h.onAllocator_bind h' (fun a => (Allocator.map_snd _).symm) serves fun r => ?_
      split <;> exact .pure
  | free pointer =>
      refine h.onAllocator_bind h' (fun a => (Allocator.map_snd _).symm) serves fun r => ?_
      split
      · exact .pure
      · exact (writeErrors_idle _).bind fun _ => .pure
  | mallocUsableSize pointer =>
      simp only [CCall.run, CCall.runUsableSize]
      split
      · exact .pure weaken
      · refine h.onAllocator_bind h' (fun a => (Allocator.map_snd _).symm) serves fun r => ?_
        split <;> exact .pure

theorem answer {p : Sandbox} (request : Request Operand) (hp : pre p)
    (serves : Serves pre (request.map (·.resolve m.heapBase p.results)) post) :
    Contract (· = p) (answer m request) (fun _ => post) ended := by
  refine .get_bind fun q eq => ?_
  rw [eq]
  dsimp only
  split
  · next op resolved =>
      rw [resolved] at serves
      refine .bind ((h.onAllocator h' (fun _ => rfl) serves).started_in hp) fun r => ?_
      split <;> exact .bind h'.provision fun _ => .pure fun _ hq => hq.1
  · next access resolved =>
      rw [resolved] at serves
      exact .bind (h.provision.started_in hp) fun a =>
        .bind (.modify fun q hq => serves q a hq.1 hq.2) fun _ => .pure fun _ hq => hq

end Requests

theorem access {p : Sandbox} {post : Sandbox → Prop} (a : Access Operand) (hp : pre p)
    (weaken : ∀ p, pre p → post p)
    (serves : ∀ request, (Step.access a).request? m p = some request → Serves pre request post) :
    Contract (· = p) (access m a) (fun _ => post) ended := by
  refine .get_bind fun q eq => ?_
  rw [eq]
  dsimp only
  split
  · exact .pure fun q eq => eq ▸ weaken p hp
  · next before ha =>
      refine .bind (.modify fun q eq => ?_) fun _ => .pure fun _ hq => hq
      rw [eq]
      exact serves _ (by rw [Step.request?, ha]; rfl) p before hp ha

/-! ## Steps -/

section Steps

variable {post : Sandbox → Prop} {w : Wrappers} {step : Step}

/-- A step that calls no wrapper. -/
theorem perform (h : Steady m pre ended) (h' : Steady m post ended) (w : Wrappers) {p : Sandbox}
    (hstep : step.wrapperCall? = none) (hp : pre p) (weaken : ∀ p, pre p → post p)
    (serves : ∀ request, step.request? m p = some request → Serves pre request post) :
    Contract (· = p) (perform m w step) (fun _ => post) ended := by
  have hp' : post p := weaken p hp
  cases step with
  | request request => exact h.answer h' request hp (serves _ rfl)
  | access a => exact Steady.access a hp weaken serves
  | call c =>
      refine .get_bind fun q eq => ?_
      rw [eq]
      exact .bind ((h.call h' _ weaken (serves _ rfl)).started_in hp) fun _ => .pure fun _ hq => hq
  | context => exact .read fun q => .pure fun _ eq => eq ▸ hp'
  | callInit | callMain => cases hstep
  | provision =>
      have kept : Contract post (discard (Sandbox.provision m)) (fun _ => post) ended :=
        .discard (h'.provision.imp fun _ _ hq => hq.1)
      exact .bind (kept.started_in hp') fun _ => .pure fun _ hq => hq
  | heapUsage => exact .bind (h'.logHeapUsage.started_in hp') fun _ => .pure fun _ hq => hq
  | initLogger verbosity =>
      exact (h'.idle ((initLogger_idle _).bind fun _ => .pure)).started_in hp'
  | log level text =>
      exact (h'.idle ((log_idle _ _).bind fun _ => .get_bind fun _ => .pure)).started_in hp'
  | reenter => exact (h'.panic _).started_in hp'
  | print text => exact .bind ((h'.print _).started_in hp') fun _ => .pure fun _ hq => hq
  | readInput =>
      exact (h'.idle ((readInput_idle (.inl rfl) (.inr rfl)).bind fun _ => .pure)).started_in hp'
  | inputFlags =>
      exact .bind (h'.systemCall.started_in hp') fun _ => .read fun q => .pure fun _ hq => hq
  | forbidden => exact .bind (h'.systemCall.started_in hp') fun _ => .pure fun _ hq => hq
  | exit status => exact .bind (h'.logHeapUsage.started_in hp') fun _ => h'.restrictedExit _

theorem perform_call {c : WrapperCall} (hstep : step.wrapperCall? = some c)
    (call : Contract pre (callWrapper (w.entered c)) (fun _ => post) ended) :
    Contract pre (Sandbox.perform m w step) (fun _ => post) ended := by
  cases step <;> cases hstep
  all_goals exact .bind call fun _ => .pure fun _ hp => hp

theorem takeStep_of_perform (still : ∀ p q, post p → Still p q → post q)
    (stepped : ∀ p result, post p → post { p with trace := .step result :: p.trace })
    (body : ∀ p, pre p →
      Contract (· = p.counted) (Sandbox.perform m w step) (fun _ => post) ended) :
    Contract pre (takeStep m w step) (fun _ => post) ended := by
  refine .get_bind fun p hp => .bind (.modify fun q eq => eq ▸ rfl) fun _ => .bind (body p hp)
    fun result => ?_
  have recorded : Contract post (emit (.step result)) (fun _ => post) ended :=
    .emit fun q hq => stepped q result hq
  dsimp only
  split
  · refine .bind (.modify fun q hq => still q _ hq ?_) fun _ => recorded
    exact ⟨rfl, rfl, rfl, rfl, rfl⟩
  · exact recorded

/-- Steps keep what the wrappers that they call keep. -/
theorem takeSteps (h : Steady m pre ended) (serves : ∀ request, Serves pre request pre)
    (steps : List Step) (calls : ∀ step ∈ steps, ∀ c, step.wrapperCall? = some c →
      Contract pre (callWrapper (w.entered c)) (fun _ => pre) ended) :
    Contract pre (takeSteps m w steps) (fun _ => pre) ended := by
  refine .forM fun step hs => takeStep_of_perform h.still h.stepped fun p hp => ?_
  have counted : pre p.counted := h.still p _ hp (.counted p)
  cases hstep : step.wrapperCall? with
  | none => exact h.perform h w hstep counted (fun _ hq => hq) fun request _ => serves request
  | some c => exact (perform_call hstep (calls step hs c hstep)).started_in counted

end Steps

end Steady

end Sandbox

end Confine
