import Confine.Log.Level
import Confine.Text.Blank
import Confine.Text.Quoted
import Confine.Word

/-! # Settings

Two variables of the environment hold settings: the size of the heap and the verbosity of the log.
Their values are bytes that anyone may have chosen. A value that cannot be read gives way to the
default.
-/

namespace Confine.Settings

/-- The variables that are set, as raw bytes. -/
structure Environment where
  heapSize : Option (List UInt8)
  verbosity : Option (List UInt8)
  deriving Repr

/-- The name of the variable that holds the size of the heap region in bytes. -/
def heapSizeVariable : String := "STRICTBOX_HEAPSIZE"

/-- The size of the heap region where nothing else is asked for. -/
def defaultHeapSize : Nat := 8 * 1024 * 1024

/-- The verbosity where nothing else is asked for. -/
def defaultVerbosity : Log.Verbosity := .upTo .warn

/-- The number written by decimal digits, of which there must be one at least. -/
def natural? (digits : List Char) : Option Nat :=
  if digits ≠ [] ∧ digits.all Char.isDigit then
    some (digits.foldl (fun n digit => 10 * n + (digit.toNat - '0'.toNat)) 0)
  else none

/-- The text without one leading plus sign. -/
def dropPlus : List Char → List Char
  | '+' :: rest => rest
  | text => text

/-- The size given by raw bytes: blanks around an optional plus sign and decimal digits, whose value
is a word. -/
def parseHeapSize? (raw : List UInt8) : Option Nat := do
  let text ← Text.decode? raw
  (natural? (dropPlus (Text.trim text))).filter (· < Word.limit)

/-- The verbosity given by raw bytes: blanks around its name. -/
def parseVerbosity? (raw : List UInt8) : Option Log.Verbosity := do
  let text ← Text.decode? raw
  Log.Verbosity.ofName? (Text.trim text)

namespace Environment

/-- The size of the heap region that the environment asks for. -/
def requestedHeapSize (e : Environment) : Nat :=
  (e.heapSize.bind parseHeapSize?).getD defaultHeapSize

/-- What there is to warn about when the size of the heap region is read. -/
def heapSizeWarning? (e : Environment) : Option String :=
  match e.heapSize with
  | none => none
  | some raw =>
    match parseHeapSize? raw with
    | some _ => none
    | none =>
      some ("Invalid " ++ Text.inQuotes heapSizeVariable ++ " " ++ Text.quoted raw ++
        s!", using {defaultHeapSize} bytes")

/-- The verbosity that the environment asks for. -/
def requestedVerbosity (e : Environment) : Log.Verbosity :=
  (e.verbosity.bind parseVerbosity?).getD defaultVerbosity

end Environment

end Confine.Settings
