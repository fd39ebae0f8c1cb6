import Confine.Settings
import Confine.Log.Logger
import Confine.Sandbox.Event
import Confine.Setup
import Confine.Stream.Input
import Confine.Stream.Output

/-! # The state of a process

All that a process can change, and the primitive actions on it: recording events, writing log lines,
entering strict mode, and the ways in which a process ends. An action that ends the process throws,
and the state stays as it was at that moment.
-/

namespace Confine

/-- How a process ends. -/
inductive Ending where
  | exited (status : Nat)
  | killed (signal : Nat)
  /-- It does not: it waits for input, or follows a cycle of blocks, for ever. -/
  | never
  deriving Repr, DecidableEq

/-- What becomes of a panic. -/
inductive PanicHandling where
  /-- It is an event, and the process exits at once. -/
  | recorded
  /-- It is reported on standard error, and the process leaves by the restricted exit. -/
  | reported
  deriving Repr, DecidableEq

/-- How the start routine of the C runtime is looked up. -/
inductive Lookup where
  | found
  | missingLibrary
  | missingSymbol
  deriving Repr, DecidableEq

/-- What comes of the request to enter the restricted mode. -/
inductive Restriction where
  /-- It is granted in name only: every system call still works. -/
  | nominal
  /-- Strict mode is entered: any other system call than reading, writing and exiting is fatal. -/
  | strict
  | refused (cause : Errno)
  deriving Repr, DecidableEq

/-- The system, the C runtime and the executable, as far as starting a program is concerned. -/
structure Host where
  lookup : Lookup
  /-- Whether a successful lookup is logged. -/
  announcesLookup : Bool
  /-- The address at which the executable was loaded. -/
  loadBias : Nat
  /-- The dynamic section of the executable. -/
  dynamicSection : List DynamicEntry
  /-- The words at its array of constructors. -/
  constructorWords : List Nat
  /-- Whether the standard streams are prepared, and not only asked to be. -/
  preparesStreams : Bool
  restriction : Restriction
  /-- Why there is no memory for a heap of any size, if so. -/
  heapRefusal : Option Errno := none
  deriving Repr

/-- What a process cannot change. -/
structure Machine where
  environment : Settings.Environment
  /-- The address at which the heap region is reserved. -/
  heapBase : Nat
  /-- The address of the start routine of the C runtime. -/
  startAddress : Nat
  panics : PanicHandling
  host : Host
  deriving Repr

/-- The state shared by everything that runs before and around the program. -/
structure Context where
  /-- The allocator, once the heap is reserved. -/
  allocator : Option Allocator
  /-- Whether the program's init function is saved and was not taken yet. -/
  initSaved : Bool
  /-- Whether the program's main function is saved and was not taken yet. -/
  mainSaved : Bool
  /-- Whether the restricted mode was entered. -/
  restricted : Bool
  deriving Repr

/-- A process in which a program is confined. -/
structure Sandbox where
  context : Context
  logger : Log.Logger
  output : Output
  input : Input
  /-- Whether the error descriptor is open. What is written to a closed one is lost. -/
  errorsOpen : Bool
  /-- What was written to standard error, by lines. -/
  errors : List String
  /-- Whether strict mode was entered. -/
  strict : Bool
  /-- The arguments with which the start routine calls the wrappers, once it has received them. -/
  received : Option Arguments
  results : StepResults
  /-- The number of the next step. -/
  nextStep : Nat
  /-- What happened so far, latest first. -/
  trace : List Event
  deriving Repr

/-- A computation of a process. -/
abbrev Run := ExceptT Ending (StateM Sandbox)

namespace Context

/-- The context of a process in which nothing has happened. -/
def fresh : Context :=
  { allocator := none, initSaved := false, mainSaved := false, restricted := false }

end Context

namespace Sandbox

/-- A process in which nothing has happened. -/
def fresh (input : InputSource) (outputOpen errorsOpen : Bool) : Sandbox :=
  { context := .fresh
    logger := .fresh
    output := .fresh outputOpen
    input := .fresh input
    errorsOpen
    errors := []
    strict := false
    received := none
    results := []
    nextStep := 0
    trace := [] }

/-- What happened, in order. -/
def events (p : Sandbox) : List Event :=
  p.trace.reverse

/-- Add an event to what happened. -/
def emit (event : Event) : Run Unit :=
  modify fun p => { p with trace := event :: p.trace }

/-- Change the context. -/
def modifyContext (change : Context → Context) : Run Unit :=
  modify fun p => { p with context := change p.context }

/-- Write lines to standard error. -/
def writeErrors (lines : List String) : Run Unit :=
  modify fun p => if p.errorsOpen then { p with errors := p.errors ++ lines } else p

/-- Hand a record to the logger. -/
def log (level : Log.Level) (text : String) : Run Unit := do
  writeErrors ((← get).logger.record level text)

/-- Initialise the logger, or warn that it was initialised before. -/
def initLogger (verbosity : Log.Verbosity) : Run Unit := do
  let (lines, logger) := (← get).logger.init verbosity
  writeErrors lines
  modify fun p => { p with logger }

/-- The signal by which the system ends a process that breaks strict mode. -/
def killSignal : Nat := 9

/-- Make a system call that strict mode forbids. -/
def systemCall : Run Unit := do
  if (← get).strict then throw (.killed killSignal)

/-- Print text on the output stream. -/
def print (text : String) : Run Unit := do
  if !text.isEmpty && !(← get).output.ready then systemCall
  modify fun p => { p with output := p.output.put text }
  emit (.printed text)

/-- Send what the output stream holds back to its descriptor. -/
def flush : Run Unit :=
  modify fun p => { p with output := p.output.flush }

/-- The exit status as others see it. -/
def observed (status : Int) : Nat :=
  (status % 256).toNat

/-- Flush the streams, then exit in the way that the restricted mode allows. -/
def restrictedExit {α : Type} (status : Int) : Run α := do
  flush
  throw (.exited (observed status))

/-- Exit as any program does: the streams are flushed first. -/
def normalExit {α : Type} (status : Int) : Run α := do
  flush
  systemCall
  throw (.exited (observed status))

/-- End the process because of a failure of the set-up. Nothing is flushed. -/
def fatal {α : Type} (failure : SetupFailure) : Run α := do
  let status := failure.reason.status
  emit (.fatal status)
  log .error s!"Failed to set up the sandbox: {failure.message}"
  systemCall
  throw (.exited status)

/-- What standard error shows of a panic. -/
def panicReport (cause : Panic) : List String :=
  ["[strictbox] panicked at <location>", cause.message]

/-- End the process because of a panic. -/
def panic {α : Type} (m : Machine) (cause : Panic) : Run α := do
  match m.panics with
  | .recorded =>
    emit (.panic cause)
    throw (.exited ExitReason.unreachable.status)
  | .reported =>
    writeErrors (panicReport cause)
    restrictedExit ExitReason.unreachable.status

end Sandbox

end Confine
