import Confine.Allocator.Request
import Confine.Constructors
import Confine.Errno
import Confine.Log.Level

/-! # Events of a process

What happens in a process, in order: what is asked of the host, where program code is entered, what
each step of the program returned, and how the process came to its end.
-/

namespace Confine

/-- A function handed to the start routine: the program's own, or the wrapper put around it. -/
inductive Entry where
  | program
  | wrapper
  deriving Repr, DecidableEq

/-- What the start routine of the C runtime is given. -/
structure StartCall where
  main : Entry
  init : Option Entry
  /-- The number of arguments. -/
  count : Int
  /-- The address of the argument vector. -/
  vector : Nat
  /-- Whether there is a function to call when the program ends. -/
  fini : Bool
  /-- Whether there is a function of the loader to call when the program ends. -/
  loaderFini : Bool
  stackEnd : Nat
  deriving Repr, DecidableEq

/-- What the context of a process shows of itself. -/
structure ContextSummary where
  restricted : Bool
  provisioned : Bool
  /-- Whether the program's init function is still saved. -/
  init : Bool
  /-- Whether the program's main function is still saved. -/
  main : Bool
  verbosity : Log.Verbosity
  deriving Repr, DecidableEq

/-- The value of a C function of the allocation interface. -/
inductive CValue where
  /-- A pointer; zero is null, and the largest word a failure to move the break. -/
  | pointer (address : Nat)
  /-- A return code, and the pointer stored for the caller, if one was. -/
  | code (code : Nat) (stored : Option Nat)
  | size (size : Nat)
  | void
  deriving Repr, DecidableEq

/-- What a C function leaves behind: its value, and the error number if it sets one. -/
structure CReply where
  value : CValue
  errno : Option Errno
  deriving Repr, DecidableEq

/-- What a step of a program returned. -/
inductive StepResult where
  /-- The answer to a request, and the allocator after it. -/
  | reply (reply : Reply) (after : Allocator)
  /-- The outcome of an access to memory. -/
  | accessed (reply : Reply)
  | called (reply : CReply)
  | context (summary : ContextSummary)
  /-- Whether records of the level asked for are written. -/
  | enabled (enabled : Bool)
  | input (bytes : List UInt8)
  /-- The state of the input descriptor and the two indicators of the input stream. -/
  | inputFlags (nonblocking atEnd failed : Bool)
  | done
  deriving Repr

/-- Something that happens in a process. -/
inductive Event where
  | reserveHeap (size : Nat)
  | resolveStart
  | startMain (call : StartCall)
  | locateConstructors
  | emitSentinels
  | primeInput
  | enterRestrictedMode
  | programInit (arguments : Arguments)
  | constructorCall (call : ConstructorCall)
  | programMain (arguments : Arguments)
  /-- Text was printed on the output stream. -/
  | printed (text : String)
  /-- The set-up failed, and the process ends at once. -/
  | fatal (status : Nat)
  /-- The program is over, and the process ends by the restricted exit. -/
  | exit (status : Int)
  | panic (cause : Panic)
  | step (result : StepResult)
  /-- The start routine returned. -/
  | returned (value : Int)
  /-- All steps are over, and the process ends as any other. -/
  | finished
  deriving Repr

namespace CValue

/-- The address that later steps know the call by. -/
def address? : CValue → Option Nat
  | pointer address => if address = 0 || address = Word.max then none else some address
  | code _ stored => stored
  | _ => none

end CValue

namespace StepResult

/-- The address that later steps know the step by. -/
def address? : StepResult → Option Nat
  | reply r _ => r.address?
  | called r => r.value.address?
  | _ => none

end StepResult

end Confine
