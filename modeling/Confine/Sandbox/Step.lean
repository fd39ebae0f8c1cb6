import Confine.Sandbox.CInterface

/-! # The steps of a program

What a program does while it runs, one step after another. A step may call the wrappers of the
program's own entry points, so `perform` is told what these are.
-/

namespace Confine

/-- Something that a program does. -/
inductive Step where
  /-- Ask the allocator of the process for something, or access memory, reserving the heap if
  needed. -/
  | request (request : Request Operand)
  /-- Access memory. -/
  | access (access : Access Operand)
  | call (call : CCall Operand)
  /-- Look at the state of the process. -/
  | context
  | callInit
  | callMain
  | provision
  | heapUsage
  | initLogger (verbosity : Log.Verbosity)
  | log (level : Log.Level) (text : String)
  /-- Enter the context of the process from within. -/
  | reenter
  | print (text : String)
  /-- Read the input stream to its end. -/
  | readInput
  | inputFlags
  /-- Make a system call that strict mode forbids. -/
  | forbidden
  /-- Leave by the exit function of the C interface. -/
  | exit (status : Int)
  deriving Repr

/-- A program: what its entry points do, and what its main function returns. -/
structure Program where
  initSteps : List Step
  mainSteps : List Step
  mainStatus : Int
  /-- What the calls of its constructors do, one after another. Calls past the end of the list do
  nothing. -/
  constructorSteps : List (List Step) := []
  deriving Repr

/-- The functions that the start routine calls instead of the program's own. -/
structure Wrappers where
  init : Arguments → Run Unit
  main : Arguments → Run Unit

namespace Sandbox

/-- What the context shows of itself. -/
def summary (p : Sandbox) : ContextSummary :=
  { restricted := p.context.restricted
    provisioned := p.context.allocator.isSome
    init := p.context.initSaved
    main := p.context.mainSaved
    verbosity := p.logger.verbosity }

/-- Read the input stream to its end. -/
def readInput : Run (List UInt8) := do
  let input := (← get).input
  if input.pushedBack.isNone && !input.ready then systemCall
  let (bytes, input) := input.readAll
  modify fun p => { p with input }
  match bytes with
  | some bytes => return bytes
  | none => throw .never

variable (m : Machine)

/-- Answer a request with the allocator of the process. -/
def answer (request : Request Operand) : Run StepResult := do
  let results := (← get).results
  match request.map (·.resolve m.heapBase results) with
  | .operation op =>
    match ← onAllocator m op.action with
    | .ok reply => return .reply reply (← provision m)
    | .error cause => return .reply (.failed (.error cause)) (← provision m)
  | .access access =>
    let (reply, a) := (← provision m).perform (.access access)
    modifyContext ({ · with allocator := some a })
    return .reply reply a

/-- Access memory. There is nothing to access before the heap is reserved. -/
def access (access : Access Operand) : Run StepResult := do
  let p ← get
  let resolved := access.map (·.resolve m.heapBase p.results)
  match p.context.allocator with
  | none => return .accessed .skipped
  | some a =>
    let (reply, a) := a.perform (.access resolved)
    modifyContext ({ · with allocator := some a })
    return .accessed reply

/-- Call a wrapper as the start routine does. Before it has received the wrappers there is none. -/
def callWrapper (wrapper : Arguments → Run Unit) : Run Unit := do
  match (← get).received with
  | some arguments => wrapper arguments
  | none => return

/-- Carry out a step. -/
def perform (w : Wrappers) : Step → Run StepResult
  | .request request => answer m request
  | .access a => access m a
  | .call c => do
    let results := (← get).results
    return .called (← (c.map (·.resolve m.heapBase results)).run m)
  | .context => return .context (← get).summary
  | .callInit => do
    callWrapper w.init
    return .done
  | .callMain => do
    callWrapper w.main
    return .done
  | .provision => do
    discard (provision m)
    return .done
  | .heapUsage => do
    logHeapUsage m
    return .done
  | .initLogger verbosity => do
    initLogger verbosity
    return .done
  | .log level text => do
    log level text
    return .enabled ((← get).logger.enabled level)
  | .reenter => panic m .contextInUse
  | .print text => do
    print text
    return .done
  | .readInput => return .input (← readInput)
  | .inputFlags => do
    systemCall
    let input := (← get).input
    return .inputFlags (input.flags?.any (·.nonblocking)) input.atEnd input.failed
  | .forbidden => do
    systemCall
    return .done
  | .exit status => do
    logHeapUsage m
    restrictedExit status

/-- Carry out a step and record what it returned. Steps are numbered in the order in which they
start. -/
def takeStep (w : Wrappers) (step : Step) : Run Unit := do
  let number := (← get).nextStep
  modify fun p => { p with nextStep := number + 1 }
  let result ← perform m w step
  match result.address? with
  | some address => modify fun p => { p with results := (number, address) :: p.results }
  | none => pure ()
  emit (.step result)

/-- Carry out steps one after another. -/
def takeSteps (w : Wrappers) (steps : List Step) : Run Unit :=
  steps.forM (takeStep m w)

end Sandbox

end Confine
