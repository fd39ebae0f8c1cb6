import Confine.Proofs.Sandbox.Account
import Confine.Proofs.Sandbox.Course

/-! # Properties of all that a run does

A property of computations that the primitive actions have, and that is kept when they are put
together, is one of everything that surrounds program code.  If the steps of program code have it as
well wherever a run comes to them, then the whole run does.
-/

namespace Confine.Sandbox

def hush (p : Sandbox) : Sandbox :=
  { p with errors := [], logger := .fresh }

@[simp] theorem events_hush (p : Sandbox) : p.hush.events = p.events := rfl

@[simp] theorem output_hush (p : Sandbox) : p.hush.output = p.output := rfl

theorem hush_writeErrors (lines : List String) (p : Sandbox) :
    (writeErrors lines p).2.hush = p.hush := by
  change hush (if p.errorsOpen then { p with errors := p.errors ++ lines } else p) = _
  split <;> rfl

theorem hush_of_log {level : Log.Level} {text : String} {p q : Sandbox}
    (logged : log level text p = (.ok (), q)) : q.hush = p.hush := by
  have left : (writeErrors (p.logger.record level text) p).2 = q := congrArg Prod.snd logged
  exact left ▸ hush_writeErrors (p.logger.record level text) p

/-- What happens at the start of a program once the logger is initialised. -/
def openRoutine (m : Machine) (request : StartRequest) : Run Unit := do
  modifyContext ({ · with initSaved := request.hasInit, mainSaved := true })
  discard (provision m)
  resolveStart m
  log .debug s!"Starting program with {request.arguments.count} argument(s)"
  emit (.startMain request.call)
  modify fun p => { p with received := some request.arguments }

def proceed (m : Machine) (s : Startup) : Run Unit := do
  openRoutine m s.request
  s.routine.calls.forM ((outerWrappers m s.program).entered · s.request.arguments)
  emit (.returned s.routine.result)
  takeSteps m (outerWrappers m s.program) s.late
  finish

theorem runStartup_eq (m : Machine) (s : Startup) : runStartup m s = (do
    takeSteps m (outerWrappers m s.program) s.early
    initLogger m.environment.requestedVerbosity
    proceed m s) := by
  simp only [runStartup, startMain_eq, enterRoutine, openRoutine, proceed, bind_assoc, pure_bind]

/-- A property of computations, begun in some process, that is kept when they are put together. -/
structure Composes (m : Machine) (Φ : ∀ ⦃α : Type⦄, Run α → Sandbox → Prop) : Prop where
  pure {α : Type} {a : α} {p : Sandbox} : Φ (Pure.pure a) p
  throw {α : Type} {e : Ending} {p : Sandbox} : Φ (MonadExcept.throw e : Run α) p
  bind {α β : Type} {x : Run α} {f : α → Run β} {p : Sandbox} (hx : Φ x p)
    (hf : ∀ a q, x p = (.ok a, q) → Φ (f a) q) : Φ (x >>= f) p
  /-- What is read is not the log. -/
  get_bind {β : Type} {f : Sandbox → Run β} {p : Sandbox} (blind : ∀ q : Sandbox, f q.hush = f q)
    (h : Φ (f p) p) : Φ (get >>= f) p
  /-- What is changed is neither the log nor the heap nor what has happened. -/
  modify {g : Sandbox → Sandbox} {p : Sandbox} (blind : ∀ q : Sandbox, (g q.hush).hush = (g q).hush)
    (kept : ∀ q : Sandbox, (g q).context.allocator = q.context.allocator ∧ (g q).trace = q.trace) :
    Φ (modify g) p
  emit {e : Event} {p : Sandbox} : Φ (emit e) p
  writeErrors {lines : List String} {p : Sandbox} : Φ (writeErrors lines) p
  log {level : Log.Level} {text : String} {p : Sandbox} : Φ (log level text) p
  initLogger {verbosity : Log.Verbosity} {p : Sandbox} : Φ (initLogger verbosity) p
  /-- The heap becomes available once it was asked for. -/
  provide {heap : Heap} {p : Sandbox} (missing : p.context.allocator = none)
    (granted : m.Grants heap)
    (asked : .reserveHeap m.environment.requestedHeapSize ∈ p.trace) :
    Φ (modifyContext ({ · with allocator := some (.new heap) })) p

variable {m : Machine} {Φ : ∀ ⦃α : Type⦄, Run α → Sandbox → Prop} {p q : Sandbox} {α : Type}

namespace Composes

variable (h : Composes m Φ)

include h

/-! ## The streams and the ways to end -/

theorem systemCall : Φ systemCall p := by
  refine h.get_bind (fun _ => rfl) ?_
  split
  · exact h.throw
  · exact h.pure

theorem flush : Φ flush p :=
  h.modify (fun _ => rfl) fun _ => ⟨rfl, rfl⟩

theorem print (text : String) : Φ (print text) p := by
  refine h.get_bind (fun _ => rfl) ?_
  extract_lets put
  have putting {p : Sandbox} : Φ (put ()) p :=
    h.bind (h.modify (fun _ => rfl) fun _ => ⟨rfl, rfl⟩) fun _ _ _ => h.emit
  split
  · exact h.bind h.systemCall fun _ _ _ => putting
  · exact putting

theorem readInput : Φ readInput p := by
  refine h.get_bind (fun _ => rfl) ?_
  extract_lets input rest
  have taken {p : Sandbox} : Φ (rest ()) p := by
    refine h.bind (h.modify (fun _ => rfl) fun _ => ⟨rfl, rfl⟩) fun _ _ _ => ?_
    split
    · exact h.pure
    · exact h.throw
  split
  · exact h.bind h.systemCall fun _ _ _ => taken
  · exact taken

theorem restrictedExit (status : Int) : Φ (restrictedExit status : Run α) p :=
  h.bind h.flush fun _ _ _ => h.throw

theorem exit (status : Int) : Φ (exit status : Run α) p :=
  h.bind h.emit fun _ _ _ => h.restrictedExit status

theorem finish : Φ finish p :=
  h.bind h.emit fun _ _ _ => h.bind h.flush fun _ _ _ => h.bind h.systemCall fun _ _ _ => h.throw

theorem fatal (failure : SetupFailure) : Φ (fatal failure : Run α) p :=
  h.bind h.emit fun _ _ _ => h.bind h.log fun _ _ _ => h.bind h.systemCall fun _ _ _ => h.throw

theorem panic (cause : Panic) : Φ (panic m cause : Run α) p := by
  unfold Sandbox.panic
  split
  · exact h.bind h.emit fun _ _ _ => h.throw
  · exact h.bind h.writeErrors fun _ _ _ => h.restrictedExit _

/-! ## The heap -/

theorem provision : Φ (provision m) p := by
  have reserve {p : Sandbox} (missing : p.context.allocator = none) : Φ (reserveHeap m) p := by
    refine h.bind h.emit fun _ q emitted => ?_
    cases emitted
    split
    · exact h.fatal _
    · next heap granted =>
        refine h.bind h.log fun _ q logged => h.bind ?_ fun _ _ _ => h.pure
        have same := hush_of_log logged
        refine h.provide ?_ granted ?_
        · exact (congrArg (·.context.allocator) same).trans missing
        · exact (congrArg Sandbox.trace same).symm ▸ List.mem_cons_self
  refine h.get_bind (fun _ => rfl) ?_
  cases missing : p.context.allocator with
  | some a => exact h.pure
  | none =>
      dsimp only
      split
      · refine h.bind h.log fun _ q logged => reserve ?_
        exact (congrArg (·.context.allocator) (hush_of_log logged)).trans missing
      · exact reserve missing

/-! ## Around program code -/

theorem enterRestrictedMode : Φ (enterRestrictedMode m) p := by
  have prepared {request : Event} {preparation : Run Unit} {p : Sandbox}
      (prepares : ∀ p, Φ preparation p) : Φ (prepare m request preparation) p := by
    refine h.bind h.emit fun _ _ _ => ?_
    split
    · exact prepares _
    · exact h.pure
  have sentinels (p : Sandbox) : Φ emitSentinels p :=
    h.bind (h.print _) fun _ _ _ => h.bind h.flush fun _ _ _ => h.writeErrors
  have primed (p : Sandbox) : Φ primeInput p := by
    refine h.get_bind (fun _ => rfl)
      (h.bind (h.modify (fun _ => rfl) fun _ => ⟨rfl, rfl⟩) fun _ _ _ => ?_)
    split
    · exact h.log
    · exact h.pure
  have requested {p : Sandbox} : Φ (requestRestriction m) p := by
    refine h.bind h.emit fun _ _ _ => ?_
    split
    · exact h.pure
    · exact h.modify (fun _ => rfl) fun _ => ⟨rfl, rfl⟩
    · exact h.fatal _
  exact h.bind (prepared sentinels) fun _ _ _ => h.bind (prepared primed) fun _ _ _ =>
    h.bind requested fun _ _ _ => h.log

theorem admitInit : Φ (admitInit m) p := by
  have located {p : Sandbox} (initSaved : Bool) : Φ (InitCode.locate m initSaved) p := by
    unfold InitCode.locate
    split
    · exact h.pure
    · refine h.bind (h.bind h.emit fun _ _ _ => ?_) fun _ _ _ => h.pure
      split
      · exact h.pure
      · exact h.panic _
  refine h.get_bind (fun _ => rfl)
    (h.bind (h.modify (fun _ => rfl) fun _ => ⟨rfl, rfl⟩) fun _ _ _ => ?_)
  split
  · exact h.bind h.log fun _ _ _ => h.pure
  · exact h.bind (located _) fun _ _ _ => h.bind h.enterRestrictedMode fun _ _ _ =>
      h.bind (h.modify (fun _ => rfl) fun _ => ⟨rfl, rfl⟩) fun _ _ _ => h.pure

theorem record (number : Nat) (result : StepResult) : Φ (Confine.record number result) p := by
  unfold Confine.record
  split
  · exact h.bind (h.modify (fun _ => rfl) fun _ => ⟨rfl, rfl⟩) fun _ _ _ => h.emit
  · exact h.emit

theorem takeStep_of_perform {w : Wrappers} {step : Step}
    (performed : Φ (perform m w step) p.counted) : Φ (takeStep m w step) p := by
  refine h.get_bind (fun _ => rfl)
    (h.bind (h.modify (fun _ => rfl) fun _ => ⟨rfl, rfl⟩) fun _ q counted => ?_)
  obtain rfl : q = p.counted := (congrArg Prod.snd counted).symm
  exact h.bind performed fun result _ _ => h.record p.nextStep result

theorem openRoutine (request : StartRequest) : Φ (openRoutine m request) p := by
  have resolved {p : Sandbox} : Φ (resolveStart m) p := by
    refine h.bind h.emit fun _ _ _ => ?_
    split
    · exact h.fatal _
    · exact h.fatal _
    · split
      · exact h.log
      · exact h.pure
  exact h.bind (h.modify (fun _ => rfl) fun _ => ⟨rfl, rfl⟩) fun _ _ _ =>
    h.bind (h.bind h.provision fun _ _ _ => h.pure) fun _ _ _ =>
    h.bind resolved fun _ _ _ => h.bind h.log fun _ _ _ => h.bind h.emit fun _ _ _ =>
    h.modify (fun _ => rfl) fun _ => ⟨rfl, rfl⟩

theorem enterRoutine (request : StartRequest) : Φ (enterRoutine m request) p :=
  h.bind h.initLogger fun _ _ _ => h.openRoutine request

end Composes

/-! ## Runs -/

/-- The main function as the main wrapper runs it. -/
def mainCode (m : Machine) (program : Program) : (depth : Nat) → Arguments → Run Int
  | 0 => fun _ => Pure.pure 0
  | depth + 1 => programMain m program (wrappers m program depth)

/-- A property that is kept when computations are put together, and that the steps of program code
have wherever a run comes to them. -/
structure Pervades (m : Machine) (s : Startup) (start : Sandbox)
    (Φ : ∀ ⦃α : Type⦄, Run α → Sandbox → Prop) : Prop extends Composes m Φ where
  plain {depth : Nat} {step : Step} {rest : List Step} {p : Sandbox}
    (here : s.Comes m start (.steps depth (step :: rest)) p) (hstep : step.wrapperCall? = none) :
    Φ (takeStep m (wrappers m s.program depth) step) p
  /-- The heap usage is logged once the main function has returned. -/
  usage {depth : Nat} {arguments : Arguments} {p : Sandbox}
    (here : s.Comes m start (.call depth .main arguments) p) (saved : p.context.mainSaved = true)
    {status : Int} {r : Sandbox}
    (returned : mainCode m s.program depth arguments p.takeMain = (.ok status, r)) :
    Φ (logHeapUsage m) r

namespace Pervades

variable {s : Startup} {start : Sandbox} {depth : Nat} (h : Pervades m s start Φ)

/-- The wrappers have the property wherever the run comes to call them. -/
def OfCalls (Φ : ∀ ⦃α : Type⦄, Run α → Sandbox → Prop) (m : Machine) (s : Startup)
    (start : Sandbox) (depth : Nat) : Prop :=
  ∀ c arguments p, s.Comes m start (.call depth c arguments) p →
    Φ ((wrappers m s.program depth).entered c arguments) p

include h

theorem step_of_calls (calls : OfCalls Φ m s start depth) {step : Step} {rest : List Step}
    (here : s.Comes m start (.steps depth (step :: rest)) p) :
    Φ (takeStep m (wrappers m s.program depth) step) p := by
  cases hstep : step.wrapperCall? with
  | none => exact h.plain here hstep
  | some c =>
      refine h.takeStep_of_perform ?_
      rw [perform_wrapperCall hstep]
      refine h.bind (h.get_bind (fun _ => rfl) ?_) fun _ _ _ => h.pure
      cases received : p.counted.received with
      | none => exact h.pure
      | some arguments => exact calls c arguments _ (here.next (.stepInto hstep received))

theorem steps_of_calls (calls : OfCalls Φ m s start depth) (steps : List Step) :
    ∀ p, s.Comes m start (.steps depth steps) p →
      Φ (takeSteps m (wrappers m s.program depth) steps) p := by
  induction steps with
  | nil => exact fun _ _ => h.pure
  | cons step rest ih =>
      intro p here
      exact h.bind (h.step_of_calls calls here) fun _ q taken => ih q (here.next (.stepOver taken))

theorem constructor_of_calls (calls : OfCalls Φ m s start depth) {call : ConstructorCall}
    {number : Nat} {rest : List (ConstructorCall × Nat)}
    (here : s.Comes m start (.constructors depth ((call, number) :: rest)) p) :
    Φ (callConstructor m s.program (wrappers m s.program depth) call number) p := by
  refine h.bind h.log fun _ q logged => h.bind h.emit fun _ r emitted => ?_
  cases emitted
  exact h.steps_of_calls calls _ _ (here.next (.constructorInto logged))

theorem constructors_of_calls (calls : OfCalls Φ m s start depth)
    (numbered : List (ConstructorCall × Nat)) :
    ∀ p, s.Comes m start (.constructors depth numbered) p →
      Φ (Task.run m s.program (.constructors depth numbered)) p := by
  induction numbered with
  | nil => exact fun _ _ => h.pure
  | cons first rest ih =>
      intro p here
      exact h.bind (h.constructor_of_calls calls here) fun _ q called =>
        ih q (here.next (.constructorOver called))

theorem init_of_calls (calls : OfCalls Φ m s start depth) {code : InitCode}
    {arguments : Arguments} (here : s.Comes m start (.call (depth + 1) .init arguments) p)
    (admitted : Sandbox.admitInit m p = (.ok (some code), q)) :
    Φ (runInitCode m s.program (wrappers m s.program depth) code arguments) q := by
  cases code with
  | program =>
      refine h.bind h.emit fun _ r emitted => ?_
      cases emitted
      exact h.steps_of_calls calls _ _ (here.next (.init admitted))
  | constructors c => exact h.constructors_of_calls calls _ q (here.next (.constructors admitted))

theorem main_of_calls (calls : OfCalls Φ m s start depth) {arguments : Arguments}
    (here : s.Comes m start (.call (depth + 1) .main arguments) p)
    (saved : p.context.mainSaved = true) :
    Φ (programMain m s.program (wrappers m s.program depth) arguments) p.takeMain := by
  refine h.bind h.emit fun _ r emitted => ?_
  cases emitted
  exact h.bind (h.steps_of_calls calls _ _ (here.next (.main saved))) fun _ _ _ => h.pure

theorem calls : ∀ depth, OfCalls Φ m s start depth := by
  have init {arguments : Arguments} {p : Sandbox} {runInit : InitCode → Arguments → Run Unit}
      (run : ∀ code q, Sandbox.admitInit m p = (.ok (some code), q) →
        Φ (runInit code arguments) q) :
      Φ (wrapInit m runInit arguments) p := by
    rw [wrapInit_eq]
    refine h.bind h.admitInit fun code? q admitted => ?_
    cases code? with
    | none => exact h.pure
    | some code => exact run code q admitted
  have main {depth : Nat} {arguments : Arguments} {p : Sandbox}
      (here : s.Comes m start (.call depth .main arguments) p)
      (run : p.context.mainSaved = true → Φ (mainCode m s.program depth arguments) p.takeMain) :
      Φ (wrapMain m (mainCode m s.program depth) arguments) p := by
    refine h.get_bind (fun _ => rfl)
      (h.bind (h.modify (fun _ => rfl) fun _ => ⟨rfl, rfl⟩) fun _ q taken => ?_)
    cases taken
    split
    · next saved =>
        exact h.bind (run saved) fun status r returned =>
          h.bind (h.usage here saved returned) fun _ _ _ => h.exit status
    · exact h.bind h.log fun _ _ _ => h.exit _
  -- What a wrapper runs calls the wrappers of one depth less.
  intro depth
  induction depth with
  | zero =>
      intro c arguments p here
      cases c <;> simp only [wrappers, Wrappers.entered]
      case init => exact init fun _ _ _ => h.pure
      case main =>
          have wrapped := main here fun _ => h.pure
          exact wrapped
  | succ depth ih =>
      intro c arguments p here
      cases c <;> simp only [wrappers, Wrappers.entered]
      case init => exact init fun _ _ => h.init_of_calls ih here
      case main =>
          have wrapped := main here (h.main_of_calls ih here)
          exact wrapped

theorem routine (calls : List WrapperCall) (arguments : Arguments) :
    ∀ p, s.Comes m start (.routine calls arguments) p →
      Φ (calls.forM ((outerWrappers m s.program).entered · arguments)) p := by
  induction calls with
  | nil => exact fun _ _ => h.pure
  | cons c rest ih =>
      intro p here
      exact h.bind (h.calls 2 c arguments p (here.next .routineInto)) fun _ q returned =>
        ih q (here.next (.routineOver returned))

/-- Everything that the run comes to has the property. -/
theorem task {t : Task} (here : s.Comes m start t p) : Φ (t.run m s.program) p := by
  cases t with
  | steps depth steps => exact h.steps_of_calls (h.calls depth) steps p here
  | call depth c arguments => exact h.calls depth c arguments p here
  | constructors depth numbered => exact h.constructors_of_calls (h.calls depth) numbered p here
  | routine calls arguments => exact h.routine calls arguments p here

theorem proceed (early : takeSteps m (outerWrappers m s.program) s.early start = (.ok (), p))
    (logged : Sandbox.initLogger m.environment.requestedVerbosity p = (.ok (), q)) :
    Φ (proceed m s) q := by
  refine h.bind (h.openRoutine s.request) fun _ r opened => ?_
  have entered : Sandbox.enterRoutine m s.request p = (.ok (), r) := (bind_ok logged).trans opened
  refine h.bind (h.task (.routine early entered)) fun _ t returned => ?_
  refine h.bind h.emit fun _ u emitted => ?_
  cases emitted
  have started : startMain m s.program s.routine s.request p = (.ok s.routine.result, t) := by
    rw [startMain_eq, bind_ok entered]
    exact bind_ok returned
  exact h.bind (h.task (.late early started)) fun _ _ _ => h.finish

end Pervades

end Confine.Sandbox
