import Confine.Proofs.Sandbox.Steady

/-! # What a run comes by

A run is a list of steps before the start, the calls that the start routine makes, and a list of
steps afterwards.  A step may call a wrapper, and a wrapper runs program code, which is lists of
steps again.  So what is run in the course of a run is found by following it from one task to the
next, and into those that a task is made of.
-/

namespace Confine

namespace Sandbox

variable (m : Machine)

/-! ## The wrappers before program code -/

/-- What the init wrapper does before it runs init code, if it does run some. -/
def admitInit : Run (Option InitCode) := do
  let context := (← get).context
  modifyContext ({ · with initSaved := false })
  if context.restricted then
    log .warn "Pre-init hook called twice, ignoring"
    return none
  else
    let code ← InitCode.locate m context.initSaved
    enterRestrictedMode m
    modifyContext ({ · with restricted := true })
    return some code

theorem wrapInit_eq (runInit : InitCode → Arguments → Run Unit) (arguments : Arguments) :
    wrapInit m runInit arguments =
      (do match ← admitInit m with
          | none => pure ()
          | some code => runInit code arguments) := by
  simp only [wrapInit, admitInit, bind_assoc]
  congr 1
  funext p
  congr 1
  funext _
  split <;> simp

/-- What happens at the start of a program before the start routine makes its calls. -/
def enterRoutine (request : StartRequest) : Run Unit := do
  initLogger m.environment.requestedVerbosity
  modifyContext ({ · with initSaved := request.hasInit, mainSaved := true })
  discard (provision m)
  resolveStart m
  log .debug s!"Starting program with {request.arguments.count} argument(s)"
  emit (.startMain request.call)
  modify fun p => { p with received := some request.arguments }

theorem startMain_eq (program : Program) (routine : StartRoutine) (request : StartRequest) :
    startMain m program routine request = do
      enterRoutine m request
      routine.calls.forM ((outerWrappers m program).entered · request.arguments)
      return routine.result := by
  simp only [startMain, runStartRoutine, enterRoutine, bind_assoc]

def takeMain (p : Sandbox) : Sandbox :=
  { p with context := { p.context with mainSaved := false } }

/-- The process in which the steps of the program's main function begin. -/
def enterMain (p : Sandbox) (arguments : Arguments) : Sandbox :=
  { p.takeMain with trace := .programMain arguments :: p.trace }

theorem wrapMain_saved {programMain : Arguments → Run Int} {arguments : Arguments} {p : Sandbox}
    (saved : p.context.mainSaved = true) :
    wrapMain m programMain arguments p =
      (do let status ← programMain arguments
          logHeapUsage m
          exit status : Run Unit) p.takeMain := by
  have taken : modifyContext ({ · with mainSaved := false }) p = (.ok (), p.takeMain) := rfl
  rw [wrapMain, bind_get, bind_ok taken, if_pos saved]

theorem wrapMain_taken {programMain : Arguments → Run Int} {arguments : Arguments} {p : Sandbox}
    (taken : p.context.mainSaved = false) :
    wrapMain m programMain arguments p =
      (do log .error "No main function to run"
          exit ExitReason.unreachable.status : Run Unit) p.takeMain := by
  have kept : modifyContext ({ · with mainSaved := false }) p = (.ok (), p.takeMain) := rfl
  rw [wrapMain, bind_get, bind_ok kept, if_neg (Bool.eq_false_iff.mp taken)]

end Sandbox

open Sandbox

/-! ## Tasks -/

/-- Something that is run in the course of a run.  Program code can be entered `depth` times more
from within it. -/
inductive Task where
  | steps (depth : Nat) (steps : List Step)
  | call (depth : Nat) (c : WrapperCall) (arguments : Arguments)
  /-- Calls of constructors, which are numbered. -/
  | constructors (depth : Nat) (calls : List (ConstructorCall × Nat))
  /-- Calls that the start routine makes. -/
  | routine (calls : List WrapperCall) (arguments : Arguments)

namespace Task

/-- How often program code can be entered from within the task. -/
def depth : Task → Nat
  | steps depth _ | call depth _ _ | constructors depth _ => depth
  | routine _ _ => 2

variable (m : Machine) (program : Program)

def run : Task → Run Unit
  | steps depth list => takeSteps m (wrappers m program depth) list
  | call depth c arguments => (wrappers m program depth).entered c arguments
  | constructors depth numbered =>
    numbered.forM fun (constructor, number) =>
      callConstructor m program (wrappers m program depth) constructor number
  | routine calls arguments => calls.forM ((outerWrappers m program).entered · arguments)

/-- The first task, begun in the first process, comes to the second one, begun in the second
process: it goes on with it, or it carries it out as a part of itself. -/
inductive Leads : Task → Sandbox → Task → Sandbox → Prop
  | stepOver {depth : Nat} {step : Step} {rest : List Step} {p q : Sandbox}
      (taken : takeStep m (wrappers m program depth) step p = (.ok (), q)) :
      Leads (.steps depth (step :: rest)) p (.steps depth rest) q
  | stepInto {depth : Nat} {step : Step} {rest : List Step} {c : WrapperCall}
      {arguments : Arguments} {p : Sandbox} (calls : step.wrapperCall? = some c)
      (received : p.received = some arguments) :
      Leads (.steps depth (step :: rest)) p (.call depth c arguments) p.counted
  | init {depth : Nat} {arguments : Arguments} {p q : Sandbox}
      (admitted : admitInit m p = (.ok (some .program), q)) :
      Leads (.call (depth + 1) .init arguments) p (.steps depth program.initSteps)
        { q with trace := .programInit arguments :: q.trace }
  | constructors {depth : Nat} {arguments : Arguments} {c : Constructors} {p q : Sandbox}
      (admitted : admitInit m p = (.ok (some (.constructors c)), q)) :
      Leads (.call (depth + 1) .init arguments) p
        (.constructors depth (c.calls m.host.constructorWords arguments).zipIdx) q
  | main {depth : Nat} {arguments : Arguments} {p : Sandbox}
      (saved : p.context.mainSaved = true) :
      Leads (.call (depth + 1) .main arguments) p (.steps depth program.mainSteps)
        (p.enterMain arguments)
  | constructorOver {depth number : Nat} {call : ConstructorCall}
      {rest : List (ConstructorCall × Nat)} {p q : Sandbox}
      (called : callConstructor m program (wrappers m program depth) call number p = (.ok (), q)) :
      Leads (.constructors depth ((call, number) :: rest)) p (.constructors depth rest) q
  | constructorInto {depth number : Nat} {call : ConstructorCall}
      {rest : List (ConstructorCall × Nat)} {p q : Sandbox}
      (logged : log .trace call.message p = (.ok (), q)) :
      Leads (.constructors depth ((call, number) :: rest)) p
        (.steps depth (program.constructorSteps.getD number []))
        { q with trace := .constructorCall call :: q.trace }
  | routineOver {c : WrapperCall} {rest : List WrapperCall} {arguments : Arguments} {p q : Sandbox}
      (returned : (outerWrappers m program).entered c arguments p = (.ok (), q)) :
      Leads (.routine (c :: rest) arguments) p (.routine rest arguments) q
  | routineInto {c : WrapperCall} {rest : List WrapperCall} {arguments : Arguments} {p : Sandbox} :
      Leads (.routine (c :: rest) arguments) p (.call 2 c arguments) p

end Task

/-- A run that starts a program in the process `start` comes to the task, and begins it in the given
process. -/
inductive Startup.Comes (m : Machine) (s : Startup) (start : Sandbox) : Task → Sandbox → Prop
  | early : Comes m s start (.steps 2 s.early) start
  | routine {p q : Sandbox}
      (early : takeSteps m (outerWrappers m s.program) s.early start = (.ok (), p))
      (entered : enterRoutine m s.request p = (.ok (), q)) :
      Comes m s start (.routine s.routine.calls s.request.arguments) q
  | late {p q : Sandbox} {value : Int}
      (early : takeSteps m (outerWrappers m s.program) s.early start = (.ok (), p))
      (returned : startMain m s.program s.routine s.request p = (.ok value, q)) :
      Comes m s start (.steps 2 s.late) { q with trace := .returned value :: q.trace }
  | next {t u : Task} {p q : Sandbox} (comes : Comes m s start t p)
      (leads : t.Leads m s.program p u q) : Comes m s start u q

/-! ## A list of steps that is over -/

section Over

variable {m : Machine} {program : Program} {s : Startup} {start p q : Sandbox} {depth : Nat}

theorem Startup.Comes.stepsOver {steps : List Step} (here : s.Comes m start (.steps depth steps) p)
    (taken : takeSteps m (wrappers m s.program depth) steps p = (.ok (), q)) :
    s.Comes m start (.steps depth []) q := by
  induction steps generalizing p with
  | nil =>
      cases taken
      exact here
  | cons step rest ih =>
      obtain ⟨_, r, first, others⟩ := ok_of_bind taken
      exact ih (here.next (.stepOver first)) others

theorem takeSteps_of_programMain {w : Wrappers} {arguments : Arguments} {value : Int}
    (returned : programMain m program w arguments p.takeMain = (.ok value, q)) :
    takeSteps m w program.mainSteps (p.enterMain arguments) = (.ok (), q) := by
  obtain ⟨_, r, entered, others⟩ := ok_of_bind returned
  cases entered
  obtain ⟨_, r, taken, done⟩ := ok_of_bind others
  cases done
  exact taken

end Over

/-! ## A task that ends the process -/

section Ends

variable {m : Machine} {program : Program} {s : Startup} {t u : Task} {start p q r : Sandbox}
  {e : Ending}

theorem callWrapper_received {wrapper : Arguments → Run Unit} {arguments : Arguments}
    (received : p.received = some arguments) : callWrapper wrapper p = wrapper arguments p := by
  rw [callWrapper, bind_get, received]

theorem perform_wrapperCall {w : Wrappers} {step : Step} {c : WrapperCall}
    (calls : step.wrapperCall? = some c) :
    perform m w step = (do callWrapper (w.entered c); return .done) := by
  cases step <;> cases calls <;> rfl

def record (number : Nat) (result : StepResult) : Run Unit := do
  match result.address? with
  | some address => modify fun p => { p with results := (number, address) :: p.results }
  | none => pure ()
  emit (.step result)

theorem takeStep_eq {w : Wrappers} (step : Step) (p : Sandbox) :
    takeStep m w step p = (perform m w step >>= record p.nextStep) p.counted :=
  rfl

/-- A process that ends in a task ends in every task that leads to it. -/
theorem Task.Leads.error (h : t.Leads m program p u q) (ends : u.run m program q = (.error e, r)) :
    t.run m program p = (.error e, r) := by
  cases h with
  | stepOver taken => exact (bind_ok taken).trans ends
  | @stepInto depth step _ _ arguments _ calls received =>
      have called : callWrapper ((wrappers m program depth).entered _) p.counted = (.error e, r) :=
        (callWrapper_received (p := p.counted) received).trans ends
      have performed : perform m (wrappers m program depth) step p.counted = (.error e, r) :=
        perform_wrapperCall calls ▸ bind_error called
      exact bind_error ((takeStep_eq step p).trans (bind_error performed))
  | init admitted =>
      exact (congrFun (wrapInit_eq m _ _) p).trans ((bind_ok admitted).trans ends)
  | constructors admitted =>
      exact (congrFun (wrapInit_eq m _ _) p).trans ((bind_ok admitted).trans ends)
  | main saved =>
      exact (wrapMain_saved m saved).trans (bind_error ((bind_ok rfl).trans (bind_error ends)))
  | constructorOver called => exact (bind_ok called).trans ends
  | constructorInto logged => exact bind_error ((bind_ok logged).trans ends)
  | routineOver returned => exact (bind_ok returned).trans ends
  | routineInto => exact bind_error ends

/-- A process that ends in a task of the run ends the run. -/
theorem Startup.Comes.error (h : s.Comes m start t p)
    (ends : t.run m s.program p = (.error e, r)) : runStartup m s start = (.error e, r) := by
  induction h with
  | early => exact bind_error ends
  | routine early entered =>
      refine (bind_ok early).trans (bind_error ?_)
      rw [startMain_eq, bind_ok entered]
      exact bind_error ends
  | @late _ q value early returned =>
      have recorded : emit (.returned value) q =
          (.ok (), { q with trace := .returned value :: q.trace }) := rfl
      exact (bind_ok early).trans ((bind_ok returned).trans
        ((bind_ok recorded).trans (bind_error ends)))
  | next _ leads ih => exact ih (leads.error ends)

end Ends

end Confine
