import Confine.Errno
import Confine.Text.Quoted

/-! # Failures of the set-up

What can go wrong before the program's own code runs, and the exit statuses that say so. They lie
outside of the range that programs commonly use, so that a failure of the set-up cannot be taken for
one of the program.
-/

namespace Confine

/-- The exit statuses kept for failures of the set-up itself. -/
inductive ExitReason where
  /-- The start routine of the C runtime was not found. -/
  | symbolResolution
  /-- The system refused the restricted mode. -/
  | restrictedMode
  /-- A path was taken that never should be. -/
  | unreachable
  /-- The heap region could not be reserved. -/
  | heapReservation
  deriving Repr, DecidableEq

/-- A failure after which the program cannot be started. -/
inductive SetupFailure where
  | heapReservation (cause : Errno)
  | libraryNotFound
  | symbolNotFound
  | restrictedMode (cause : Errno)
  deriving Repr, DecidableEq

namespace ExitReason

/-- The exit status of a failure. -/
def status : ExitReason → Nat
  | symbolResolution => 120
  | restrictedMode => 121
  | unreachable => 122
  | heapReservation => 123

end ExitReason

/-- The library that holds the start routine of the C runtime. -/
def runtimeLibrary : String := "libc.so.6"

/-- The symbol of the start routine of the C runtime. -/
def startSymbol : String := "__libc_start_main"

namespace SetupFailure

/-- Which exit status a failure leads to. -/
def reason : SetupFailure → ExitReason
  | heapReservation _ => .heapReservation
  | libraryNotFound | symbolNotFound => .symbolResolution
  | restrictedMode _ => .restrictedMode

/-- The failure as log lines name it. -/
def message : SetupFailure → String
  | heapReservation cause => s!"HeapReservation({cause.message})"
  | libraryNotFound => s!"LibraryNotFound({Text.inQuotes runtimeLibrary})"
  | symbolNotFound => s!"SymbolNotFound({Text.inQuotes startSymbol})"
  | restrictedMode cause => s!"RestrictedMode({cause.name})"

end SetupFailure

end Confine
