import Confine.Proofs.Sandbox.Endings
import Confine.Proofs.Sandbox.StartupOrder

/-! # Failures of the set-up

A request to the host that fails is the last thing that a process does.  The exit status tells which
request it was, and no program code has run.
-/

namespace Confine

/-- The step asks for something of the allocator, or accesses its heap. -/
def Step.isAllocation : Step → Bool
  | .request _ | .access _ | .call _ | .provision => true
  | _ => false

/-- The steps before the start are over when the program is started. -/
def Startup.Begins (m : Machine) (s : Startup) (p : Sandbox) : Prop :=
  ∃ q, Sandbox.takeSteps m (Sandbox.outerWrappers m s.program) s.early p = (.ok (), q)

namespace Sandbox

variable {m : Machine} {s : Startup} {isOpen : Bool} {p : Sandbox} {es past : List Event}
  {e : Ending} {request : Event} {status : Nat}

/-! ## The last events -/

theorem isTerminal_of_passes {event : Event} (h : event.Passes m s) : event.isTerminal = false := by
  cases event <;> first | rfl | exact h.elim

theorem not_passes_of_refused (refused : m.host.restriction.granted = false) :
    ¬Event.enterRestrictedMode.Passes m s := by
  intro passes
  have granted := passes.1
  rw [refused] at granted
  cases granted

theorem not_passes_of_fails (h : request.Fails m s status) : ¬request.Passes m s := by
  cases h with
  | heap refused => exact refused
  | lookup missing => exact missing
  | restriction refused _ => exact not_passes_of_refused refused

theorem isStage_of_fails (h : request.Fails m s status) : request.isStage = true := by
  cases h <;> rfl

theorem isTerminal_of_fails (h : request.Fails m s status) : request.isTerminal = false := by
  cases h <;> rfl

theorem Closed.last (h : Closed m s isOpen e p) :
    ∀ event ∈ p.trace.tail, event.isTerminal = false := by
  have through {past : List Event} (passes : ∀ event ∈ past, event.Passes m s) :
      ∀ event ∈ past, event.isTerminal = false :=
    fun event he => isTerminal_of_passes (passes event he)
  cases h with
  | killed passes | never passes | left passes _ =>
      exact fun event he => through passes event (List.mem_of_mem_tail he)
  | exit trace passes _ | panic trace passes =>
      rw [trace]
      exact through passes
  | failed trace passes fails =>
      rw [trace]
      exact List.forall_mem_cons.mpr ⟨isTerminal_of_fails fails, through passes⟩

/-- The process ended with this failure, and all else that it asked the host for was granted. -/
structure EndsWith (m : Machine) (s : Startup) (request : Event) (status : Nat) (e : Ending)
    (es : List Event) : Prop where
  ending : e = .exited status
  fails : request.Fails m s status
  cut : ∃ past, es = past ++ [request, .fatal status] ∧ ∀ event ∈ past, event.Passes m s

/-- A request that could not be granted was the last one. -/
theorem Closed.endsWith (h : Closed m s isOpen e p) (made : request ∈ p.events)
    (ordinary : request.isTerminal = false) (blocked : ¬request.Passes m s) :
    ∃ status, EndsWith m s request status e p.events := by
  have asked : request ∈ p.trace := List.mem_reverse.mp made
  cases h with
  | killed passes | never passes | left passes _ => exact absurd (passes _ asked) blocked
  | exit trace passes _ | panic trace passes =>
      rw [trace] at asked
      rcases List.mem_cons.mp asked with rfl | asked
      · cases ordinary
      · exact absurd (passes _ asked) blocked
  | @failed _ last status past trace passes fails =>
      have same : request = last := by
        rw [trace] at asked
        rcases List.mem_cons.mp asked with rfl | asked
        · cases ordinary
        · rcases List.mem_cons.mp asked with same | asked
          · exact same
          · exact absurd (passes _ asked) blocked
      refine ⟨status, rfl, same ▸ fails, past.reverse, ?_, ?_⟩
      · rw [events, trace, same]
        simp
      · exact fun event he => passes event (List.mem_reverse.mp he)

theorem eq_of_first {α : Type} {a : α} {xs ys zs ws : List α} (h : xs ++ a :: ys = zs ++ a :: ws)
    (hx : a ∉ xs) (hz : a ∉ zs) : xs = zs := by
  rcases List.append_eq_append_iff.mp h with ⟨_ | ⟨b, more⟩, eq, rest⟩ | ⟨_ | ⟨b, more⟩, eq, rest⟩
  · rw [eq, List.append_nil]
  · cases rest
    exact absurd (eq ▸ by simp) hz
  · rw [eq, List.append_nil]
  · cases rest
    exact absurd (eq ▸ by simp) hx

/-- The stages up to a request that fails are those listed before it. -/
theorem EndsWith.stages (h : EndsWith m s request status e es) (order : s.InOrder m es)
    {earlier later : List Event} (listed : s.stages m = earlier ++ request :: later)
    (new : request ∉ earlier) : es.filter Event.isStage = earlier ++ [request] := by
  obtain ⟨past, cut, passes⟩ := h.cut
  have stage := isStage_of_fails h.fails
  have whole : es.filter Event.isStage = past.filter Event.isStage ++ [request] := by
    rw [cut, List.filter_append, List.filter_cons_of_pos stage]
    rfl
  have unasked : request ∉ past.filter Event.isStage := fun asked =>
    not_passes_of_fails h.fails (passes _ (List.mem_filter.mp asked).1)
  obtain ⟨rest, eq⟩ := order.stages
  rw [whole, listed, List.append_assoc, List.singleton_append] at eq
  rw [whole, eq_of_first eq unasked new]

/-- The process exits with a status because a request failed, and these are the stages of the start
that it went through. -/
structure StopsAt (e : Ending) (es : List Event) (status : Nat) (stages : List Event) : Prop where
  ending : e = .exited status
  notable : es.filter Event.isNotable = stages
  fatal : es.getLast? = some (.fatal status)

theorem EndsWith.stopsAt (h : EndsWith m s request status e es) (order : s.InOrder m es)
    {earlier later : List Event} (listed : s.stages m = earlier ++ request :: later)
    (new : request ∉ earlier) (mainless : ∀ a, .programMain a ∉ es) :
    StopsAt e es status (earlier ++ [request]) where
  ending := h.ending
  notable := by
    rw [← h.stages order listed new]
    refine List.filter_congr fun event he => ?_
    have noMain : event.isMain = false := by
      cases event <;> first | rfl | exact absurd he (mainless _)
    simp [Event.isNotable, noMain]
  fatal := by
    obtain ⟨past, cut, -⟩ := h.cut
    simp [cut]

/-- Without a heap or a start routine no wrapper is called, and so the main function is not
entered. -/
theorem EndsWith.mainless (h : EndsWith m s request status e es) (unhanded : ¬s.Hands m)
    (a : Arguments) : .programMain a ∉ es := by
  obtain ⟨past, cut, passes⟩ := h.cut
  have stage := isStage_of_fails h.fails
  intro entered
  rw [cut] at entered
  rcases List.mem_append.mp entered with entered | entered
  · exact unhanded (passes _ entered)
  · rcases List.mem_cons.mp entered with eq | entered
    · rw [← eq] at stage
      cases stage
    · simp at entered

/-! ## How far a start gets -/

/-- The process asked the host for this before it ended. -/
abbrev Asked (request : Event) (_ : Ending) (p : Sandbox) : Prop :=
  request ∈ p.trace

theorem fatal_asked {α : Type} (failure : SetupFailure) {post : α → Sandbox → Prop} :
    Contract (request ∈ ·.trace) (fatal failure) post (Asked request) := by
  intro p asked
  refine (fatal_contract failure p).consequence (fun _ hq => hq) (fun _ _ hq => hq) ?_ p (.refl p)
  rintro _ q ⟨-, hq⟩
  rw [Asked, hq.trace]
  exact List.mem_cons_of_mem _ asked

abbrev heapRequest (m : Machine) : Event :=
  .reserveHeap m.environment.requestedHeapSize

abbrev Bare (p : Sandbox) : Prop :=
  p.context.allocator = none

theorem Bare.still {p q : Sandbox} (h : Bare p) (still : Still p q) : Bare q :=
  (congrArg Context.allocator still.context).trans h

section Refused

variable (refused : ¬m.Reserves) {α β : Type}

include refused

/-- Where the heap is refused, the first need of it is the end. -/
theorem provision_refused {post : Allocator → Sandbox → Prop} :
    Contract Bare (provision m) post (Asked (heapRequest m)) := by
  have reserve : Contract Bare (reserveHeap m) post (Asked (heapRequest m)) := by
    have asked : Contract Bare (emit (heapRequest m)) (fun _ => (heapRequest m ∈ ·.trace))
        (Asked (heapRequest m)) :=
      .emit fun _ _ => List.mem_cons_self
    refine .bind asked fun _ => ?_
    split
    · exact fatal_asked _
    · next heap granted => exact absurd ⟨heap, granted⟩ refused
  refine .get_bind fun p bare => ?_
  rw [bare]
  dsimp only
  split
  · exact .bind (((log_idle _ _).returns fun _ _ => Bare.still).started_in bare) fun _ => reserve
  · exact reserve.started_in bare

theorem onAllocator_refused (action : Allocator.Action α) {f : Except AllocError α → Run β}
    {post : β → Sandbox → Prop} :
    Contract Bare (onAllocator m action >>= f) post (Asked (heapRequest m)) := by
  have never : Contract Bare (provision m) (fun _ _ => False) (Asked (heapRequest m)) :=
    provision_refused refused
  have ends : Contract Bare (onAllocator m action) (fun _ _ => False) (Asked (heapRequest m)) :=
    .bind never fun _ _ => False.elim
  exact .bind ends fun _ _ => False.elim

theorem call_refused (c : CCall Nat) :
    Contract Bare (c.run m) (fun _ => Bare) (Asked (heapRequest m)) := by
  cases c with
  | posixMemalign alignment size =>
      simp only [CCall.run, CCall.runPosixMemalign]
      split
      · exact .pure fun _ bare => bare
      · exact onAllocator_refused refused _
  | mallocUsableSize pointer =>
      simp only [CCall.run, CCall.runUsableSize]
      split
      · exact .pure fun _ bare => bare
      · exact onAllocator_refused refused _
  | _ => exact onAllocator_refused refused _

theorem answer_refused (request : Request Operand) :
    Contract Bare (answer m request) (fun _ => Bare) (Asked (heapRequest m)) := by
  have never : Contract Bare (provision m) (fun _ _ => False) (Asked (heapRequest m)) :=
    provision_refused refused
  refine .read fun p => ?_
  dsimp only
  split
  · exact onAllocator_refused refused _
  · exact .bind never fun _ _ => False.elim

theorem perform_refused (w : Wrappers) {step : Step} (allocation : step.isAllocation = true) :
    Contract Bare (perform m w step) (fun _ => Bare) (Asked (heapRequest m)) := by
  cases step with
  | request request => exact answer_refused refused request
  | access a =>
      refine .get_bind fun p bare => ?_
      simp only [bare]
      exact .pure fun q eq => eq ▸ bare
  | call c => exact .read fun p => .bind (call_refused refused _) fun _ => .pure fun _ bare => bare
  | provision =>
      exact .bind (.discard (provision_refused refused)) fun _ => .pure fun _ bare => bare
  | _ => cases allocation

/-- Before the start, steps that use the allocator do nothing to a process without a heap unless
they end it. -/
theorem takeSteps_refused (w : Wrappers) {steps : List Step}
    (allocations : ∀ step ∈ steps, step.isAllocation = true) :
    Contract Bare (takeSteps m w steps) (fun _ => Bare) (Asked (heapRequest m)) := by
  refine .forM fun step hs => Steady.takeStep_of_perform (fun _ _ => Bare.still)
    (fun _ _ bare => bare) fun p bare => ?_
  exact (perform_refused refused w (allocations step hs)).started_in (p := p.counted) bare

theorem startMain_refused {post : Int → Sandbox → Prop} :
    Contract Bare (startMain m s.program s.routine s.request) post (Asked (heapRequest m)) := by
  have never : Contract Bare (discard (provision m)) (fun _ _ => False) (Asked (heapRequest m)) :=
    .discard (provision_refused refused)
  exact .bind ((initLogger_idle _).returns fun _ _ => Bare.still) fun _ =>
    .bind (.modify fun p bare => bare) fun _ => .bind never fun _ _ => False.elim

end Refused

theorem startMain_resolves (reserves : m.Reserves) (missing : m.host.lookup ≠ .found)
    {post : Int → Sandbox → Prop} :
    Contract (fun _ => True) (startMain m s.program s.routine s.request) post
      (Asked .resolveStart) := by
  have provisioned : Contract (fun _ => True) (provision m) (fun _ _ => True)
      (Asked .resolveStart) := by
    have reserve : Contract (fun _ => True) (reserveHeap m) (fun _ _ => True)
        (Asked .resolveStart) := by
      obtain ⟨heap, granted⟩ := reserves
      have provided : Contract (fun _ => True)
          (modifyContext ({ · with allocator := some (.new heap) })) (fun _ _ => True)
          (Asked .resolveStart) :=
        .modify fun _ _ => trivial
      have asked : Contract (fun _ => True) (emit (heapRequest m)) (fun _ _ => True)
          (Asked .resolveStart) :=
        .emit fun _ _ => trivial
      simp only [reserveHeap, granted]
      exact .bind asked fun _ => .bind ((log_idle _ _).returns fun _ _ _ _ => trivial) fun _ =>
        .bind provided fun _ => .pure fun _ _ => trivial
    refine .read fun p => ?_
    split
    · exact .pure fun _ _ => trivial
    · split
      · exact .bind ((log_idle _ _).returns fun _ _ _ _ => trivial) fun _ => reserve
      · exact reserve
  have resolved : Contract (fun _ => True) (resolveStart m) (fun _ _ => False)
      (Asked .resolveStart) := by
    have asked : Contract (fun _ => True) (emit .resolveStart) (fun _ => (.resolveStart ∈ ·.trace))
        (Asked .resolveStart) :=
      .emit fun _ _ => List.mem_cons_self
    refine .bind asked fun _ => ?_
    split
    · exact fatal_asked _
    · exact fatal_asked _
    · next found => exact absurd found missing
  exact .bind ((initLogger_idle _).returns fun _ _ _ _ => trivial) fun _ =>
    .bind (.modify fun _ _ => trivial) fun _ => .bind (.discard provisioned) fun _ =>
    .bind resolved fun _ _ => False.elim

/-! ## The whole run -/

section Run

variable {input : InputSource} {errorsOpen : Bool}

theorem asked_of_start {pre : Sandbox → Prop}
    (early : Contract (· = fresh input isOpen errorsOpen)
      (takeSteps m (outerWrappers m s.program) s.early) (fun _ => pre) (Asked request))
    (start : Contract pre (startMain m s.program s.routine s.request) (fun _ _ => False)
      (Asked request))
    (run : conclude (runStartup m s) (fresh input isOpen errorsOpen) = (some e, p)) :
    request ∈ p.events := by
  have whole : Contract (· = fresh input isOpen errorsOpen) (runStartup m s) (fun _ _ => False)
      (Asked request) :=
    .bind early fun _ => .bind start fun _ _ => False.elim
  obtain ⟨e', q, ends, asked⟩ := whole.ends rfl
  have same := run.symm.trans (conclude_error ends)
  cases same
  exact List.mem_reverse.mpr asked

theorem early_of_begins (begins : s.Begins m (fresh input isOpen errorsOpen)) :
    Contract (· = fresh input isOpen errorsOpen)
      (takeSteps m (outerWrappers m s.program) s.early) (fun _ => Early m s isOpen)
      (Asked request) := by
  rintro p rfl
  obtain ⟨q, eq⟩ := begins
  have early := earlySteps_going (m := m) _ (fresh_early m s input isOpen errorsOpen)
  rw [eq] at early ⊢
  exact early

/-- Where the heap is refused, the request for it is made if the program is started, or if all that
is done before is to use the allocator. -/
theorem asked_of_refused (refused : ¬m.Reserves)
    (needed : s.Begins m (fresh input isOpen errorsOpen) ∨
      ∀ step ∈ s.early, step.isAllocation = true)
    (run : conclude (runStartup m s) (fresh input isOpen errorsOpen) = (some e, p)) :
    heapRequest m ∈ p.events := by
  refine asked_of_start ?_ (startMain_refused refused) run
  cases needed with
  | inl begins =>
      refine (early_of_begins begins).imp fun _ q early => ?_
      exact Option.isNone_iff_eq_none.mp
        (Option.isSome_eq_false_iff.mp (Bool.eq_false_iff.mpr (mt early.reserves refused)))
  | inr allocations => exact (takeSteps_refused refused _ allocations).started_in rfl

theorem asked_of_missing (reserves : m.Reserves) (missing : m.host.lookup ≠ .found)
    (begins : s.Begins m (fresh input isOpen errorsOpen))
    (run : conclude (runStartup m s) (fresh input isOpen errorsOpen) = (some e, p)) :
    .resolveStart ∈ p.events :=
  asked_of_start (early_of_begins begins)
    ((startMain_resolves reserves missing).consequence (fun _ _ => trivial) (fun _ _ h => h)
      fun _ _ h => h) run

end Run

theorem mainless_of_refused (order : s.InOrder m es) (refused : m.host.restriction.granted = false)
    (called : s.calls ≠ []) (initFirst : s.calls.head? ≠ some .main) (a : Arguments) :
    .programMain a ∉ es := by
  intro entered
  have first : s.InitFirst := by
    unfold Startup.InitFirst
    cases calls : s.calls with
    | nil => exact absurd calls called
    | cons c rest =>
        cases c with
        | init => simp
        | main =>
            rw [calls] at initFirst
            exact absurd rfl initFirst
  have granted := (order.confined first ⟨a, entered⟩).1
  rw [refused] at granted
  cases granted

theorem EndsWith.stopsAt_of_refused (h : EndsWith m s .enterRestrictedMode status e es)
    (order : s.InOrder m es) (refused : m.host.restriction.granted = false)
    (mainless : ∀ a, .programMain a ∉ es) : StopsAt e es status (s.entering m) := by
  have entering : s.entering m = s.opening m ++ s.locating ++ [.emitSentinels, .primeInput] ++
      [.enterRestrictedMode] := by
    simp [Startup.entering]
  have listed : s.stages m = s.opening m ++ s.locating ++ [.emitSentinels, .primeInput] ++
      [.enterRestrictedMode] := by
    simp [Startup.stages, Startup.entering, refused]
  have new : .enterRestrictedMode ∉
      s.opening m ++ s.locating ++ [.emitSentinels, .primeInput] := by
    cases legacy : s.request.hasInit <;> simp [Startup.opening, Startup.locating, legacy]
  exact entering ▸ h.stopsAt order listed new mainless

/-- What becomes of a start when a part of the set-up fails. -/
structure SetupFails (m : Machine) (s : Startup) (start : Sandbox) (e : Ending) (es : List Event) :
    Prop where
  /-- The heap is refused, at the start of the program or at an earlier need of it. -/
  heap : ¬m.Reserves →
    s.Begins m start ∨ (∀ step ∈ s.early, step.isAllocation = true) ∨ heapRequest m ∈ es →
    StopsAt e es 123 [heapRequest m]
  /-- The start routine is not found, and so not called. -/
  lookup : m.host.lookup ≠ .found → m.Reserves ∧ s.Begins m start ∨ .resolveStart ∈ es →
    StopsAt e es 120 [heapRequest m, .resolveStart]
  /-- The restricted mode is refused, and neither init code nor the main function is entered. -/
  restriction : m.host.restriction.granted = false → s.calls.head? ≠ some .main →
    .enterRestrictedMode ∈ es → StopsAt e es 121 (s.entering m)
  /-- Only the last event of a process ends it. -/
  last : ∀ event ∈ es.dropLast, event.isTerminal = false

/-- A failure of the set-up stops a process before program code, with the status of what failed, and
nothing happens after an event that ends a process. -/
theorem setupFails_of_run (m : Machine) (s : Startup) (input : InputSource)
    (outputOpen errorsOpen : Bool) :
    ∃ e p, conclude (runStartup m s) (fresh input outputOpen errorsOpen) = (some e, p) ∧
      SetupFails m s (fresh input outputOpen errorsOpen) e p.events := by
  obtain ⟨e, p, run, closed⟩ := conclude_closed m s input outputOpen errorsOpen
  have order := inOrder_of_conclude run
  refine ⟨e, p, run, ?_, ?_, ?_, ?_⟩
  · intro refused needed
    have made : heapRequest m ∈ p.events := by
      rcases needed with begins | early | made
      · exact asked_of_refused refused (.inl begins) run
      · exact asked_of_refused refused (.inr early) run
      · exact made
    obtain ⟨status, ends⟩ := closed.endsWith made rfl refused
    cases ends.fails
    exact ends.stopsAt order rfl List.not_mem_nil (ends.mainless fun handed => refused handed.1)
  · intro missing needed
    have made : .resolveStart ∈ p.events := by
      rcases needed with ⟨reserves, begins⟩ | made
      · exact asked_of_missing reserves missing begins run
      · exact made
    obtain ⟨status, ends⟩ := closed.endsWith made rfl missing
    have listed : s.stages m = [heapRequest m] ++ .resolveStart :: _ := rfl
    cases ends.fails
    exact ends.stopsAt order listed (by simp) (ends.mainless fun handed => missing handed.2.1)
  · intro refused initFirst made
    obtain ⟨status, ends⟩ := closed.endsWith made rfl (not_passes_of_refused refused)
    cases ends.fails with
    | restriction _ handed =>
        exact ends.stopsAt_of_refused order refused
          (mainless_of_refused order refused handed.2.2 initFirst)
  · rw [events, List.dropLast_reverse]
    exact fun event he => closed.last event (List.mem_reverse.mp he)

end Sandbox

end Confine
