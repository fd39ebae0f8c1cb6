import Confine.Sandbox.Step

/-! # Starting a program

A program is started by the start routine of the C runtime, which runs the program's init function
and then its main function. Here the start routine is handed two wrappers instead. The first one
enters the restricted mode right before the program's own first instruction; the second one runs the
program's main function and leaves by the restricted exit.

The program's main function is saved before the start routine is called and taken by the wrapper
that runs it, and what runs before it is run only if the restricted mode was not entered yet. So
program code is entered at most twice, and calls of wrappers from within it nest at most two deep.
-/

namespace Confine

/-- How a program is to be started. -/
structure StartRequest where
  arguments : Arguments
  /-- Whether the program comes with an init function of its own. -/
  hasInit : Bool
  fini : Bool
  loaderFini : Bool
  stackEnd : Nat
  deriving Repr

/-- The call of the start routine: the wrappers stand in for the program's own functions. -/
def StartRequest.call (request : StartRequest) : StartCall where
  main := .wrapper
  init := some .wrapper
  count := request.arguments.count
  vector := request.arguments.vector
  fini := request.fini
  loaderFini := request.loaderFini
  stackEnd := request.stackEnd

/-- A call that the start routine makes. -/
inductive WrapperCall where
  | init
  | main
  deriving Repr, DecidableEq

/-- The wrapper that is called. -/
def Wrappers.entered (w : Wrappers) : WrapperCall → Arguments → Run Unit
  | .init => w.init
  | .main => w.main

/-- What the start routine does with what it is given: the calls it makes, and what it then returns.
-/
structure StartRoutine where
  calls : List WrapperCall
  result : Int
  deriving Repr

namespace Sandbox

/-- The line written to both output streams right before the restricted mode is entered. -/
def sentinel : String := "<<entering SECCOMP mode>>"

/-- Print the sentinel on both streams, which sets them up. -/
def emitSentinels : Run Unit := do
  print (sentinel ++ "\n")
  flush
  writeErrors [sentinel]

/-- Set the input stream up, or warn that this was not possible. -/
def primeInput : Run Unit := do
  let (refusal, input) := (← get).input.prime
  modify fun p => { p with input }
  match refusal with
  | some cause => log .warn cause.message
  | none => return

variable (m : Machine)

/-- Ask the host to prepare standard streams. Not every host does. -/
def prepare (request : Event) (preparation : Run Unit) : Run Unit := do
  emit request
  if m.host.preparesStreams then preparation

/-- Ask the host for the restricted mode, and end the process if it is refused. -/
def requestRestriction : Run Unit := do
  emit .enterRestrictedMode
  match m.host.restriction with
  | .nominal => return
  | .strict => modify fun p => { p with strict := true }
  | .refused cause => fatal (.restrictedMode cause)

/-- Enter the restricted mode. The streams come first: setting them up takes system calls that are
forbidden afterwards. -/
def enterRestrictedMode : Run Unit := do
  prepare m .emitSentinels emitSentinels
  prepare m .primeInput primeInput
  requestRestriction m
  log .debug "Running in seccomp strict mode"

/-- Find out where the constructors of the executable are. -/
def locateConstructors : Run Constructors := do
  emit .locateConstructors
  match Constructors.ofDynamic m.host.loadBias m.host.dynamicSection with
  | .ok c => return c
  | .error cause => panic m cause

/-- What a program runs before its main function. -/
inductive InitCode where
  /-- Its own init function, as older start files hand it over. -/
  | program
  /-- The constructors of the executable. -/
  | constructors (c : Constructors)
  deriving Repr

/-- Find out what to run before the main function. The constructors are located at once, as that may
take system calls. -/
def InitCode.locate (initSaved : Bool) : Run InitCode :=
  if initSaved then return .program else .constructors <$> locateConstructors m

/-- The init wrapper: enter the restricted mode, then run the program's init function, or the
constructors of the executable if there is none. -/
def wrapInit (runInit : InitCode → Arguments → Run Unit) (arguments : Arguments) : Run Unit := do
  let context := (← get).context
  modifyContext ({ · with initSaved := false })
  if context.restricted then
    log .warn "Pre-init hook called twice, ignoring"
  else
    let code ← InitCode.locate m context.initSaved
    enterRestrictedMode m
    modifyContext ({ · with restricted := true })
    runInit code arguments

/-- Leave once the program is over. -/
def exit {α : Type} (status : Int) : Run α := do
  emit (.exit status)
  restrictedExit status

/-- The main wrapper: run the program's main function, which can happen only once, and exit with
what it returns. -/
def wrapMain (programMain : Arguments → Run Int) (arguments : Arguments) : Run Unit := do
  let saved := (← get).context.mainSaved
  modifyContext ({ · with mainSaved := false })
  if saved then
    let status ← programMain arguments
    logHeapUsage m
    exit status
  else
    log .error "No main function to run"
    exit ExitReason.unreachable.status

/-- The program's init function, with the wrappers that its steps can call. -/
def programInit (program : Program) (w : Wrappers) (arguments : Arguments) : Run Unit := do
  emit (.programInit arguments)
  takeSteps m w program.initSteps

/-- Call a constructor, with the wrappers that its steps can call. -/
def callConstructor (program : Program) (w : Wrappers) (call : ConstructorCall) (number : Nat) :
    Run Unit := do
  log .trace call.message
  emit (.constructorCall call)
  takeSteps m w (program.constructorSteps.getD number [])

/-- Call the constructors of the executable. -/
def runConstructors (program : Program) (w : Wrappers) (c : Constructors) (arguments : Arguments) :
    Run Unit :=
  (c.calls m.host.constructorWords arguments).zipIdx.forM fun (call, number) =>
    callConstructor m program w call number

/-- Run what the program runs before its main function. -/
def runInitCode (program : Program) (w : Wrappers) : InitCode → Arguments → Run Unit
  | .program => programInit m program w
  | .constructors c => runConstructors m program w c

/-- The program's main function, with the wrappers that its steps can call. -/
def programMain (program : Program) (w : Wrappers) (arguments : Arguments) : Run Int := do
  emit (.programMain arguments)
  takeSteps m w program.mainSteps
  return program.mainStatus

/-- The wrappers for program code that is entered at most `depth` times more. Where nothing is left
to be entered, the restricted mode was entered and the main function was taken, so that the wrappers
never get to program code. -/
def wrappers (program : Program) : (depth : Nat) → Wrappers
  | 0 =>
    { init := wrapInit m fun _ _ => pure ()
      main := wrapMain m fun _ => pure 0 }
  | depth + 1 =>
    { init := wrapInit m (runInitCode m program (wrappers program depth))
      main := wrapMain m (programMain m program (wrappers program depth)) }

/-- The wrappers, before any program code was entered. -/
def outerWrappers (program : Program) : Wrappers :=
  wrappers m program 2

/-- The start routine, which is handed the wrappers. -/
def runStartRoutine (program : Program) (routine : StartRoutine) (request : StartRequest) :
    Run Int := do
  emit (.startMain request.call)
  modify fun p => { p with received := some request.arguments }
  let w := outerWrappers m program
  routine.calls.forM (w.entered · request.arguments)
  return routine.result

/-- Look the start routine up. -/
def resolveStart : Run Unit := do
  emit .resolveStart
  match m.host.lookup with
  | .missingLibrary => fatal .libraryNotFound
  | .missingSymbol => fatal .symbolNotFound
  | .found =>
    if m.host.announcesLookup then
      log .debug s!"Resolved {Text.inQuotes startSymbol} at {Text.hex m.startAddress}"

/-- Take over the start of a program, then hand control to the start routine. -/
def startMain (program : Program) (routine : StartRoutine) (request : StartRequest) : Run Int := do
  initLogger m.environment.requestedVerbosity
  modifyContext ({ · with initSaved := request.hasInit, mainSaved := true })
  discard (provision m)
  resolveStart m
  log .debug s!"Starting program with {request.arguments.count} argument(s)"
  runStartRoutine m program routine request

/-- The end of a process whose steps are all over. -/
def finish : Run Unit := do
  emit .finished
  normalExit 0

end Sandbox

/-- All that a process is asked to do when a program is started in it. -/
structure Startup where
  /-- Steps before the program is started. -/
  early : List Step
  program : Program
  routine : StartRoutine
  request : StartRequest
  /-- Steps after the start routine has returned. -/
  late : List Step
  deriving Repr

/-- A call of the C interface: a step, or the start of a program. -/
inductive Invocation where
  | step (step : Step)
  | start (program : Program) (request : StartRequest)
  deriving Repr

namespace Sandbox

variable (m : Machine)

/-- Run a process in which a program is started. -/
def runStartup (s : Startup) : Run Unit := do
  let w := outerWrappers m s.program
  takeSteps m w s.early
  let value ← startMain m s.program s.routine s.request
  emit (.returned value)
  takeSteps m w s.late
  finish

/-- The start routine of the C runtime: init, then main. -/
def runtimeStart : StartRoutine :=
  ⟨[.init, .main], 0⟩

/-- Make a call of the C interface. -/
def invoke : Invocation → Run Unit
  | .step step =>
    takeStep m (outerWrappers m { initSteps := [], mainSteps := [], mainStatus := 0 }) step
  | .start program request => discard (startMain m program runtimeStart request)

/-- Run a process that makes calls of the C interface. -/
def runInvocations (calls : List Invocation) : Run Unit := do
  calls.forM (invoke m)
  finish

/-- How a computation ends, and the process that it leaves behind. A computation that returns leaves
the process alive; the computations of this file never do. -/
def conclude (run : Run Unit) (p : Sandbox) : Option Ending × Sandbox :=
  match run p with
  | (.error ending, p) => (some ending, p)
  | (.ok _, p) => (none, p)

end Sandbox

end Confine
