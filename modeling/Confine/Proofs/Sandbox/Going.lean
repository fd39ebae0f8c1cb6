import Confine.Proofs.Sandbox.Stages

/-! # How a process goes on and how it ends

As long as a process goes on, every request to the host was granted and every text printed is in the
output stream or has passed through it.  A process ends because the system stops it, because it
leaves and flushes its output, because of a panic, or because a request of the set-up fails.
-/

namespace Confine

namespace Event

def isTerminal : Event → Bool
  | fatal _ | exit _ | panic _ => true
  | _ => false

def text : Event → String
  | printed text => text
  | _ => ""

end Event

def printedText : List Event → String
  | [] => ""
  | e :: rest => e.text ++ printedText rest

theorem printedText_append (es fs : List Event) :
    printedText (es ++ fs) = printedText es ++ printedText fs := by
  induction es with
  | nil => exact String.empty_append.symm
  | cons e rest ih => rw [List.cons_append, printedText, ih, printedText, String.append_assoc]

namespace Output

variable (o : Output) (text : String)

@[simp] theorem isOpen_put : (o.put text).isOpen = o.isOpen := by
  unfold put
  split <;> rfl

@[simp] theorem isOpen_flush : o.flush.isOpen = o.isOpen := by
  unfold flush
  split <;> rfl

theorem passed_put : (o.put text).delivered ++ (o.put text).buffered =
    o.delivered ++ o.buffered ++ text := by
  unfold put
  split
  · next empty => rw [String.isEmpty_iff.mp empty, String.append_empty]
  · exact String.append_assoc.symm

theorem passed_flush : o.flush.delivered ++ o.flush.buffered = o.delivered ++ o.buffered := by
  unfold flush
  split
  · exact String.append_empty
  · rfl

end Output

/-- The system has the memory for the heap. -/
def Machine.Reserves (m : Machine) : Prop :=
  ∃ heap, Sandbox.reservation m m.environment.requestedHeapSize = .ok heap

/-- The start routine was found and is handed the wrappers, and some wrapper is called. -/
def Startup.Hands (m : Machine) (s : Startup) : Prop :=
  m.Reserves ∧ m.host.lookup = .found ∧ s.calls ≠ []

/-- The process goes on after the event.  A request to the host was granted. -/
def Event.Passes (m : Machine) (s : Startup) : Event → Prop
  | fatal _ | exit _ | panic _ => False
  | reserveHeap _ => m.Reserves
  | resolveStart => m.host.lookup = .found
  | enterRestrictedMode => m.host.restriction.granted = true ∧ s.Hands m
  | programMain _ => s.Hands m
  | _ => True

/-- The request to the host fails, which leads to this exit status. -/
inductive Event.Fails (m : Machine) (s : Startup) : Event → Nat → Prop
  | heap (refused : ¬m.Reserves) :
      Fails m s (.reserveHeap m.environment.requestedHeapSize) ExitReason.heapReservation.status
  | lookup (missing : m.host.lookup ≠ .found) :
      Fails m s .resolveStart ExitReason.symbolResolution.status
  | restriction (refused : m.host.restriction.granted = false) (handed : s.Hands m) :
      Fails m s .enterRestrictedMode ExitReason.restrictedMode.status

namespace Sandbox

variable {m : Machine} {s : Startup} {received : Option Arguments} {isOpen : Bool} {p q : Sandbox}

theorem printedText_push (e : Event) (p : Sandbox) :
    printedText { p with trace := e :: p.trace }.events = printedText p.events ++ e.text := by
  rw [events, List.reverse_cons, printedText_append, printedText, printedText, String.append_empty,
    events]

/-- The process goes on.  All that was printed is delivered or buffered. -/
structure Flowing (m : Machine) (s : Startup) (received : Option Arguments) (isOpen : Bool)
    (p : Sandbox) : Prop where
  passes : ∀ e ∈ p.trace, e.Passes m s
  receipt : p.received = received
  descriptor : p.output.isOpen = isOpen
  output : p.output.delivered ++ p.output.buffered = printedText p.events
  reserves : p.context.allocator.isSome = true → m.Reserves
  provisioned : received.isSome = true → p.context.allocator.isSome = true
  strict : p.strict = true → received.isSome = true ∧ m.host.restriction = .strict

/-- The sentinel was printed if it was asked for and there are streams for it. -/
def Announced (m : Machine) (p : Sandbox) : Prop :=
  m.host.preparesStreams = true → .emitSentinels ∈ p.trace → .printed (sentinel ++ "\n") ∈ p.trace

/-- The process goes on, and is not about to print the sentinel. -/
structure Going (m : Machine) (s : Startup) (received : Option Arguments) (isOpen : Bool)
    (p : Sandbox) : Prop extends Flowing m s received isOpen p where
  announced : Announced m p

/-- What was printed has arrived, the sentinel with it. -/
structure Delivered (m : Machine) (isOpen : Bool) (p : Sandbox) : Prop where
  output : isOpen = true → p.output.delivered = printedText p.events
  announced : Announced m p

/-- The process has ended. -/
inductive Closed (m : Machine) (s : Startup) (isOpen : Bool) : Ending → Sandbox → Prop
  | killed {p : Sandbox} (passes : ∀ e ∈ p.trace, e.Passes m s) :
      Closed m s isOpen (.killed killSignal) p
  | never {p : Sandbox} (passes : ∀ e ∈ p.trace, e.Passes m s) : Closed m s isOpen .never p
  | left {p : Sandbox} {status : Nat} (passes : ∀ e ∈ p.trace, e.Passes m s)
      (delivered : Delivered m isOpen p) : Closed m s isOpen (.exited status) p
  | exit {p : Sandbox} {status : Int} {past : List Event} (trace : p.trace = .exit status :: past)
      (passes : ∀ e ∈ past, e.Passes m s) (delivered : Delivered m isOpen p) :
      Closed m s isOpen (.exited (observed status)) p
  | panic {p : Sandbox} {cause : Panic} {past : List Event} (trace : p.trace = .panic cause :: past)
      (passes : ∀ e ∈ past, e.Passes m s) :
      Closed m s isOpen (.exited ExitReason.unreachable.status) p
  | failed {p : Sandbox} {request : Event} {status : Nat} {past : List Event}
      (trace : p.trace = .fatal status :: request :: past) (passes : ∀ e ∈ past, e.Passes m s)
      (fails : request.Fails m s status) : Closed m s isOpen (.exited status) p

/-! ## One step -/

theorem Announced.still (h : Announced m p) (still : Still p q) : Announced m q := by
  unfold Announced at h ⊢
  rwa [still.trace]

theorem Announced.push {e : Event} (h : Announced m p) (other : e ≠ .emitSentinels) :
    Announced m { p with trace := e :: p.trace } :=
  fun prepares asked =>
    List.mem_cons_of_mem e (h prepares (List.mem_of_ne_of_mem other.symm asked))

theorem Delivered.still (h : Delivered m isOpen p) (still : Still p q) : Delivered m isOpen q where
  output arrives := by
    rw [still.output, still.events]
    exact h.output arrives
  announced := h.announced.still still

namespace Flowing

theorem still (h : Flowing m s received isOpen p) (still : Still p q) :
    Flowing m s received isOpen q where
  passes := still.trace ▸ h.passes
  receipt := still.received.trans h.receipt
  descriptor := still.output ▸ h.descriptor
  output := by
    rw [still.output, still.events]
    exact h.output
  reserves := still.context ▸ h.reserves
  provisioned := still.context ▸ h.provisioned
  strict := still.strict ▸ h.strict

theorem push {e : Event} (h : Flowing m s received isOpen p) (passes : e.Passes m s)
    (plain : e.text = "") : Flowing m s received isOpen { p with trace := e :: p.trace } :=
  { h with
    passes := List.forall_mem_cons.mpr ⟨passes, h.passes⟩
    output := by
      rw [printedText_push, plain, String.append_empty]
      exact h.output }

theorem print (h : Flowing m s received isOpen p) (text : String) :
    Flowing m s received isOpen
      { p with output := p.output.put text, trace := .printed text :: p.trace } :=
  { h with
    passes := List.forall_mem_cons.mpr ⟨trivial, h.passes⟩
    descriptor := (p.output.isOpen_put text).trans h.descriptor
    output := (p.output.passed_put text).trans
      ((congrArg (· ++ text) h.output).trans (printedText_push (.printed text) p).symm) }

theorem flush (h : Flowing m s received isOpen p) :
    Flowing m s received isOpen { p with output := p.output.flush } :=
  { h with
    descriptor := p.output.isOpen_flush.trans h.descriptor
    output := p.output.passed_flush.trans h.output }

theorem arrives (h : Flowing m s received isOpen p) (opened : isOpen = true) :
    p.output.flush.delivered = printedText p.events := by
  rw [Output.flush, if_pos (h.descriptor.trans opened)]
  exact h.output

end Flowing

namespace Going

theorem still (h : Going m s received isOpen p) (still : Still p q) :
    Going m s received isOpen q :=
  ⟨h.toFlowing.still still, h.announced.still still⟩

theorem push {e : Event} (h : Going m s received isOpen p) (passes : e.Passes m s)
    (plain : e.text = "") (other : e ≠ .emitSentinels) :
    Going m s received isOpen { p with trace := e :: p.trace } :=
  ⟨h.toFlowing.push passes plain, h.announced.push other⟩

theorem delivered (h : Going m s received isOpen p) :
    Delivered m isOpen { p with output := p.output.flush } :=
  ⟨h.arrives, h.announced⟩

theorem reserve (h : Going m s received isOpen p) {heap : Heap} (size : Nat)
    (granted : reservation m m.environment.requestedHeapSize = .ok heap) :
    Going m s received isOpen { p with
      trace := .reserveHeap size :: p.trace
      context := { p.context with allocator := some (.new heap) } } :=
  { h.push (e := .reserveHeap size) ⟨heap, granted⟩ rfl nofun with
    reserves := fun _ => ⟨heap, granted⟩
    provisioned := fun _ => rfl }

end Going

theorem Closed.still {e : Ending} (h : Closed m s isOpen e p) (still : Still p q) :
    Closed m s isOpen e q := by
  have trace := still.trace
  cases h with
  | killed passes => exact .killed (trace ▸ passes)
  | never passes => exact .never (trace ▸ passes)
  | left passes delivered => exact .left (trace ▸ passes) (delivered.still still)
  | exit eq passes delivered => exact .exit (trace.trans eq) passes (delivered.still still)
  | panic eq passes => exact .panic (trace.trans eq) passes
  | failed eq passes fails => exact .failed (trace.trans eq) passes fails

theorem Going.serves (request : Request Nat) :
    Serves (Going m s received isOpen) request (Going m s received isOpen) :=
  fun p _ h present => { h with
    reserves := fun _ => h.reserves (by rw [present]; rfl)
    provisioned := fun _ => rfl }

/-- The steps of a program keep a process going until they end it. -/
theorem Going.steady :
    Steady m (Going m s received isOpen) (Closed m s isOpen) where
  still _ _ h still := h.still still
  closed _ _ _ h still := h.still still
  killed _ h := .killed h.passes
  never _ h := .never h.passes
  left _ _ h := .left h.passes h.delivered
  panicked _ _ h := .panic rfl h.passes
  stepped _ _ h := h.push trivial rfl nofun
  printed _ text h := ⟨h.toFlowing.print text, h.announced.push nofun⟩
  reserved _ _ h _ granted := h.reserve _ granted
  refused p cause h missing refused := by
    -- The restricted mode is entered with a heap only, so it cannot stop the exit.
    have alive : p.strict = false := by
      refine Bool.eq_false_iff.mpr fun strict => ?_
      have present := h.provisioned (h.strict strict).1
      rw [missing] at present
      cases present
    rw [alive]
    refine .failed rfl h.passes (.heap ?_)
    rintro ⟨heap, granted⟩
    rw [refused] at granted
    cases granted

end Sandbox

end Confine
