import Confine.Proofs.Sandbox.Composition
import Confine.Proofs.Sandbox.MainExit

/-! # The verbosity changes nothing but the log

Records are handed to the logger from everywhere, and the heap usage is only computed when someone
listens.  Two processes that differ in nothing but the log run alike all the same: whatever reads
the verbosity writes a line to standard error and goes on.  For the heap usage that takes a heap
whose live blocks can be counted, as those of every region of less than `2 ^ 36` bytes can.
-/

namespace Confine

def Machine.logging (m : Machine) (verbosity : Option (List UInt8)) : Machine :=
  { m with environment := { m.environment with verbosity } }

/-- What the step returns shows the verbosity. -/
def Step.showsVerbosity : Step → Bool
  | .context | .log _ _ => true
  | _ => false

/-- No step that the run comes to shows the verbosity. -/
def Startup.Discreet (m : Machine) (s : Startup) (start : Sandbox) : Prop :=
  ∀ depth step rest p, s.Comes m start (.steps depth (step :: rest)) p →
    step.showsVerbosity = false

/-- Wherever the run comes, the live blocks are few enough to be counted. -/
def Startup.Countable (m : Machine) (s : Startup) (start : Sandbox) : Prop :=
  ∀ t p, s.Comes m start t p → p.Countable

/-- In a region of less than `2 ^ 36` bytes the live blocks can be counted at any time. -/
theorem Startup.countable_of_small {m : Machine} {s : Startup} {start : Sandbox} (sited : m.Sited)
    (honest : s.Honest m start) (unstarted : start.gist.Trusted m false 2)
    (small : m.environment.requestedHeapSize < 2 ^ 36) : s.Countable m start := by
  intro t p here
  have trusted := here.trusted honest unstarted
  cases t with
  | steps depth steps =>
      obtain ⟨started, h⟩ := trusted
      exact Sandbox.countable_of_small sited h.accounts small
  | call | constructors | routine =>
      exact Sandbox.countable_of_small sited trusted.accounts small

namespace Sandbox

def hushed {α : Type} (outcome : Except Ending α × Sandbox) : Except Ending α × Sandbox :=
  (outcome.1, outcome.2.hush)

/-- In processes that differ from this one in nothing but the log, the computation does the same but
for the log. -/
def Mute {α : Type} (x : Run α) (p : Sandbox) : Prop :=
  ∀ q : Sandbox, q.hush = p.hush → hushed (x q) = hushed (x p)

variable {m : Machine} {p q : Sandbox} {α β : Type} {x : Run α} {f : α → Run β}

namespace Mute

theorem pure {a : α} : Mute (Pure.pure a) p :=
  fun _ same => congrArg (Prod.mk _) same

theorem throw {e : Ending} : Mute (MonadExcept.throw e : Run α) p :=
  fun _ same => congrArg (Prod.mk _) same

theorem bind (hx : Mute x p) (hf : ∀ a q, x p = (.ok a, q) → Mute (f a) q) :
    Mute (x >>= f) p := by
  intro q same
  have alike := hx q same
  rcases run : x p with ⟨e | a, p'⟩ <;> rcases run' : x q with ⟨e' | a', q'⟩ <;>
    rw [run, run'] at alike <;> simp only [hushed, Prod.mk.injEq] at alike
  · cases alike.1
    rw [bind_error run, bind_error run']
    exact congrArg (Prod.mk _) alike.2
  · cases alike.1
  · cases alike.1
  · cases alike.1
    rw [bind_ok run, bind_ok run']
    exact hf a p' run q' alike.2

theorem get_bind {f : Sandbox → Run β} (blind : ∀ q : Sandbox, f q.hush = f q) (h : Mute (f p) p) :
    Mute (get >>= f) p := by
  intro q same
  have alike : f q = f p := by rw [← blind q, same, blind p]
  change hushed (f q q) = hushed (f p p)
  rw [alike]
  exact h q same

theorem modify {g : Sandbox → Sandbox} (blind : ∀ q : Sandbox, (g q.hush).hush = (g q).hush) :
    Mute (modify g) p := by
  intro q same
  have alike : (g q).hush = (g p).hush := by rw [← blind q, same, blind p]
  exact congrArg (Prod.mk _) alike

theorem of_silent {a : α} (silent : ∀ q, hushed (x q) = (.ok a, q.hush)) : Mute x p := by
  intro q same
  rw [silent, silent, same]

theorem forM {ι : Type} {l : List ι} {f : ι → Run PUnit} (h : ∀ i p, Mute (f i) p) :
    Mute (l.forM f) p := by
  induction l generalizing p with
  | nil => exact pure
  | cons i l ih => exact (h i p).bind fun _ _ _ => ih

theorem emit {e : Event} : Mute (emit e) p :=
  .modify fun _ => rfl

theorem modifyContext {change : Context → Context} : Mute (modifyContext change) p :=
  .modify fun _ => rfl

end Mute

/-! ## The log -/

theorem hushed_writeErrors (lines : List String) (q : Sandbox) :
    hushed (writeErrors lines q) = (.ok (), q.hush) := by
  change (_, hush (if q.errorsOpen then { q with errors := q.errors ++ lines } else q)) = _
  split <;> rfl

theorem hushed_initLogger (verbosity : Log.Verbosity) (q : Sandbox) :
    hushed (initLogger verbosity q) = (.ok (), q.hush) :=
  hushed_writeErrors (q.logger.init verbosity).1 q

theorem writeErrors_mute (lines : List String) : Mute (writeErrors lines) p :=
  .of_silent (hushed_writeErrors lines)

theorem log_mute (level : Log.Level) (text : String) : Mute (log level text) p :=
  .of_silent fun q => hushed_writeErrors (q.logger.record level text) q

theorem initLogger_mute (verbosity : Log.Verbosity) : Mute (initLogger verbosity) p :=
  .of_silent (hushed_initLogger verbosity)

/-- The heap usage is computed for the log alone, and a heap that is accounted for lets it be. -/
theorem logHeapUsage_mute (sited : m.Sited) (accounts : m.Accounts p.context.allocator)
    (few : p.Countable) : Mute (logHeapUsage m) p := by
  intro q same
  have usage (q : Sandbox) (accounts : m.Accounts q.context.allocator) (few : q.Countable) :
      hushed (logHeapUsage m q) = (.ok (), q.hush) := by
    rw [logHeapUsage, bind_get]
    split
    · rfl
    · cases present : q.context.allocator with
      | none => rfl
      | some a =>
          obtain ⟨usage, walked⟩ :=
            (Machine.Accounts.liveUsage (present ▸ accounts) sited).1 (few a present)
          simp only [walked]
          exact hushed_writeErrors (q.logger.record .debug _) q
  have shared : q.context = p.context := by
    change q.hush.context = p.hush.context
    rw [same]
  have few' : q.Countable := by rwa [Sandbox.Countable, shared]
  rw [usage q (shared ▸ accounts) few', usage p accounts few, same]

/-- Whatever surrounds program code writes to the log and goes on. -/
theorem Mute.composes (m : Machine) : Composes m @Mute where
  pure := .pure
  throw := .throw
  bind := .bind
  get_bind := .get_bind
  modify blind _ := .modify blind
  emit := .emit
  writeErrors := writeErrors_mute _
  log := log_mute _ _
  initLogger := initLogger_mute _
  provide _ _ _ := .modifyContext

/-! ## Steps -/

theorem onAllocator_mute (action : Allocator.Action α) : Mute (onAllocator m action) p := by
  refine .bind (Mute.composes m).provision fun before _ _ => .bind .modifyContext fun _ _ _ =>
    .bind (.forM fun _ _ => log_mute _ _) fun _ _ _ => ?_
  split
  · exact .pure
  · exact .pure
  · exact (Mute.composes m).panic _
  · exact .throw

theorem ofAllocation_mute (result : Except AllocError Nat) :
    Mute (CCall.ofAllocation result) p := by
  cases result with
  | ok address => exact .pure
  | error cause => exact .bind (log_mute _ _) fun _ _ _ => .pure

theorem call_mute (c : CCall Nat) : Mute (c.run m) p := by
  have aligned {p : Sandbox} (alignment size : Nat) :
      Mute (CCall.runAlignedAlloc m alignment size) p := by
    refine .bind (onAllocator_mute _) fun _ _ _ => ?_
    split
    · exact .pure
    · exact ofAllocation_mute _
  cases c with
  | malloc | calloc => exact .bind (onAllocator_mute _) fun _ _ _ => ofAllocation_mute _
  | alignedAlloc | memalign => exact aligned _ _
  | realloc pointer size =>
      refine .bind (onAllocator_mute _) fun _ _ _ => ?_
      split
      · exact .pure
      · exact .bind (writeErrors_mute _) fun _ _ _ => .pure
      · exact ofAllocation_mute _
  | posixMemalign alignment size =>
      simp only [CCall.run, CCall.runPosixMemalign]
      split
      · exact .pure
      · refine .bind (onAllocator_mute _) fun _ _ _ => ?_
        split <;> exact .pure
  | sbrk increment =>
      refine .bind (onAllocator_mute _) fun _ _ _ => ?_
      split <;> exact .pure
  | free pointer =>
      refine .bind (onAllocator_mute _) fun _ _ _ => ?_
      split
      · exact .pure
      · exact .bind (writeErrors_mute _) fun _ _ _ => .pure
  | mallocUsableSize pointer =>
      simp only [CCall.run, CCall.runUsableSize]
      split
      · exact .pure
      · refine .bind (onAllocator_mute _) fun _ _ _ => ?_
        split <;> exact .pure

theorem answer_mute (request : Request Operand) : Mute (answer m request) p := by
  refine .get_bind (fun _ => rfl) ?_
  dsimp only
  split
  · refine .bind (onAllocator_mute _) fun _ _ _ => ?_
    split <;> exact .bind (Mute.composes m).provision fun _ _ _ => .pure
  · exact .bind (Mute.composes m).provision fun _ _ _ => .bind .modifyContext fun _ _ _ => .pure

theorem access_mute (a : Access Operand) : Mute (access m a) p := by
  refine .get_bind (fun _ => rfl) ?_
  dsimp only
  split
  · exact .pure
  · exact .bind .modifyContext fun _ _ _ => .pure

theorem perform_mute (sited : m.Sited) (accounts : m.Accounts p.context.allocator)
    (few : p.Countable) (w : Wrappers) {step : Step} (hstep : step.wrapperCall? = none) (discreet : step.showsVerbosity = false) :
    Mute (perform m w step) p := by
  cases step with
  | request request => exact answer_mute request
  | access a => exact access_mute a
  | call c => exact .get_bind (fun _ => rfl) (.bind (call_mute _) fun _ _ _ => .pure)
  | callInit | callMain => cases hstep
  | context | log => cases discreet
  | provision =>
      exact .bind (.bind (Mute.composes m).provision fun _ _ _ => .pure) fun _ _ _ => .pure
  | heapUsage => exact .bind (logHeapUsage_mute sited accounts few) fun _ _ _ => .pure
  | initLogger verbosity => exact .bind (initLogger_mute _) fun _ _ _ => .pure
  | reenter => exact (Mute.composes m).panic _
  | print text => exact .bind ((Mute.composes m).print _) fun _ _ _ => .pure
  | readInput => exact .bind (Mute.composes m).readInput fun _ _ _ => .pure
  | inputFlags =>
      exact .bind (Mute.composes m).systemCall fun _ _ _ => .get_bind (fun _ => rfl) .pure
  | forbidden => exact .bind (Mute.composes m).systemCall fun _ _ _ => .pure
  | exit status =>
      exact .bind (logHeapUsage_mute sited accounts few) fun _ _ _ => (Mute.composes m).restrictedExit _

/-- Wherever an honest run comes, what it does is mute as long as no step shows the verbosity. -/
theorem Mute.pervades {s : Startup} {start : Sandbox} (sited : m.Sited)
    (honest : s.Honest m start) (unstarted : start.gist.Trusted m false 2)
    (discreet : s.Discreet m start) (countable : s.Countable m start) : Pervades m s start @Mute where
  toComposes := Mute.composes m
  plain {depth step rest p} here hstep := by
    obtain ⟨started, trusted⟩ := here.trusted honest unstarted
    have accounts : m.Accounts p.counted.context.allocator := trusted.accounts
    have few : p.counted.Countable := countable _ p here
    exact (Mute.composes m).takeStep_of_perform
      (perform_mute sited accounts few _ hstep (discreet depth step rest p here))
  usage {depth arguments p} here saved {status r} returned := by
    have trusted : p.gist.Trusted m true depth := here.trusted honest unstarted
    cases depth with
    | zero =>
        cases returned
        exact logHeapUsage_mute sited trusted.accounts (countable _ p here)
    | succ depth =>
        have entering := here.next (.main saved)
        have left := (main_returns honest entering
          (enterMain_trusted trusted saved)).returned rfl returned
        have finished := entering.stepsOver (takeSteps_of_programMain returned)
        exact logHeapUsage_mute sited left.accounts (countable _ r finished)

/-! ## Another verbosity -/

section Logging

variable (verbosity : Option (List UInt8))

theorem takeSteps_logging (w : Wrappers) (steps : List Step) :
    takeSteps (m.logging verbosity) w steps = takeSteps m w steps := by
  have same (step : Step) : takeStep (m.logging verbosity) w step = takeStep m w step := by
    cases step <;> rfl
  rw [takeSteps, takeSteps, funext same]

theorem runInitCode_logging (program : Program) (w : Wrappers) (code : InitCode) :
    runInitCode (m.logging verbosity) program w code = runInitCode m program w code := by
  funext arguments
  cases code with
  | program => exact congrArg (emit (.programInit arguments) >>= fun _ => ·) (takeSteps_logging ..)
  | constructors c =>
      have same (call : ConstructorCall) (number : Nat) :
          callConstructor (m.logging verbosity) program w call number =
            callConstructor m program w call number := by
        simp only [callConstructor, takeSteps_logging]
      simp only [runInitCode, runConstructors, same]
      rfl

theorem wrappers_logging (program : Program) (depth : Nat) :
    wrappers (m.logging verbosity) program depth = wrappers m program depth := by
  have main (w : Wrappers) :
      programMain (m.logging verbosity) program w = programMain m program w := by
    funext arguments
    simp only [programMain, takeSteps_logging]
  induction depth with
  | zero => rfl
  | succ depth ih =>
      have init :=
        funext (runInitCode_logging (m := m) verbosity program (wrappers m program depth))
      simp only [wrappers, ih, main, init]
      rfl

theorem outerWrappers_logging (program : Program) :
    outerWrappers (m.logging verbosity) program = outerWrappers m program :=
  wrappers_logging verbosity program 2

theorem proceed_logging (s : Startup) : proceed (m.logging verbosity) s = proceed m s := by
  simp only [proceed, outerWrappers_logging, takeSteps_logging]
  rfl

end Logging

/-! ## The whole run -/

section Run

variable {s : Startup} {start : Sandbox}

/-- The same run with two verbosities, up to the log. -/
theorem runStartup_hushed (sited : m.Sited) (honest : s.Honest m start)
    (unstarted : start.gist.Trusted m false 2) (discreet : s.Discreet m start)
    (countable : s.Countable m start) (verbosity : Option (List UInt8)) :
    hushed (runStartup (m.logging verbosity) s start) = hushed (runStartup m s start) := by
  have logs (verbosity : Log.Verbosity) (p : Sandbox) :
      ∃ q, initLogger verbosity p = (.ok (), q) ∧ q.hush = p.hush := by
    have silent := hushed_initLogger verbosity p
    rcases run : initLogger verbosity p with ⟨_ | _, q⟩ <;> rw [run] at silent <;>
      simp only [hushed, Prod.mk.injEq] at silent
    · cases silent.1
    · exact ⟨q, rfl, silent.2⟩
  rw [runStartup_eq, runStartup_eq, outerWrappers_logging, takeSteps_logging, proceed_logging]
  rcases early : takeSteps m (outerWrappers m s.program) s.early start with ⟨e | _, p⟩
  · rw [bind_error early, bind_error early]
  · obtain ⟨q, logged, same⟩ := logs m.environment.requestedVerbosity p
    obtain ⟨q', logged', same'⟩ := logs (m.logging verbosity).environment.requestedVerbosity p
    rw [bind_ok early, bind_ok early, bind_ok logged, bind_ok logged']
    exact (Mute.pervades sited honest unstarted discreet countable).proceed early logged q'
      (same'.trans same.symm)

end Run

theorem conclude_hushed {x y : Run Unit} (same : hushed (x q) = hushed (y p)) :
    (conclude x q).1 = (conclude y p).1 ∧ (conclude x q).2.hush = (conclude y p).2.hush := by
  unfold conclude
  rcases run : x q with ⟨_ | _, q'⟩ <;> rcases run' : y p with ⟨_ | _, p'⟩ <;>
    rw [run, run'] at same <;> simp only [hushed, Prod.mk.injEq] at same
  · cases same.1
    exact ⟨rfl, same.2⟩
  · cases same.1
  · cases same.1
  · exact ⟨rfl, same.2⟩

/-- Another verbosity makes no difference to a run, apart from what is written to standard error.
-/
structure IgnoresVerbosity (m : Machine) (s : Startup) (start : Sandbox)
    (verbosity : Option (List UInt8)) : Prop where
  ending : (conclude (runStartup (m.logging verbosity) s) start).1 =
    (conclude (runStartup m s) start).1
  /-- What happened is the same, what every step returned included. -/
  events : (conclude (runStartup (m.logging verbosity) s) start).2.events =
    (conclude (runStartup m s) start).2.events
  output : (conclude (runStartup (m.logging verbosity) s) start).2.output =
    (conclude (runStartup m s) start).2.output
  /-- And so is all else but the log. -/
  process : (conclude (runStartup (m.logging verbosity) s) start).2.hush =
    (conclude (runStartup m s) start).2.hush

/-- The verbosity does not influence the program. -/
theorem ignoresVerbosity_of_honest (m : Machine) (s : Startup) (input : InputSource)
    (outputOpen errorsOpen : Bool) (verbosity : Option (List UInt8)) (sited : m.Sited)
    (honest : s.Honest m (fresh input outputOpen errorsOpen))
    (discreet : s.Discreet m (fresh input outputOpen errorsOpen))
    (countable : s.Countable m (fresh input outputOpen errorsOpen)) :
    IgnoresVerbosity m s (fresh input outputOpen errorsOpen) verbosity := by
  obtain ⟨ending, process⟩ := conclude_hushed (runStartup_hushed sited honest
    (fresh_trusted m input outputOpen errorsOpen) discreet countable verbosity)
  refine ⟨ending, ?_, ?_, process⟩
  · rw [← events_hush, process, events_hush]
  · rw [← output_hush, process, output_hush]

/-- A program that stores words which look like a header, with a log of all there is and with none.
-/
theorem ignoresVerbosity_of_forger : talkative.Sited ∧ forger.Honest talkative Forger.outset ∧
    forger.Discreet talkative Forger.outset ∧ forger.Countable talkative Forger.outset ∧
    IgnoresVerbosity talkative forger Forger.outset none := by
  have discreet : forger.Discreet talkative Forger.outset := by
    intro depth step rest p here
    rcases Forger.passes_of_comes here with ended | ⟨-, ⟨steps, -⟩ | ⟨steps, -⟩⟩
    · cases ended
    · cases steps
      rfl
    · cases steps
      rfl
  have countable : forger.Countable talkative Forger.outset :=
    Startup.countable_of_small Forger.sited Forger.honest (fresh_trusted talkative .closed true true)
      (by decide)
  exact ⟨Forger.sited, Forger.honest, discreet, countable, ignoresVerbosity_of_honest talkative
    forger .closed true true none Forger.sited Forger.honest discreet countable⟩

end Sandbox

end Confine
