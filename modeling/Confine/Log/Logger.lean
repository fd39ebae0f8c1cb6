import Confine.Log.Level

/-! # The logger

Nothing is written before the logger is initialised. The first initialisation sets the verbosity for
good; a later one only warns, under the verbosity that is in force.
-/

namespace Confine.Log

/-- The logger, with the verbosity it was initialised with. -/
structure Logger where
  chosen : Option Verbosity
  deriving Repr, DecidableEq

namespace Logger

/-- A logger that was not initialised. -/
def fresh : Logger :=
  ⟨none⟩

/-- The verbosity in force. -/
def verbosity (l : Logger) : Verbosity :=
  l.chosen.getD .off

/-- Whether a record of a level is written. -/
def enabled (l : Logger) (level : Level) : Bool :=
  l.verbosity.admits level

/-- How a record looks when it is written. -/
def line (level : Level) (text : String) : String :=
  s!"[strictbox] [{level.name}] {text}"

/-- The lines that a record adds to the log. -/
def record (l : Logger) (level : Level) (text : String) : List String :=
  if l.enabled level then [line level text] else []

/-- What a second initialisation says. -/
def alreadyInitialized : String :=
  "Logger is already initialized, skipping init"

/-- Initialise the logger. The lines that this adds to the log come with it. -/
def init (l : Logger) (verbosity : Verbosity) : List String × Logger :=
  match l.chosen with
  | none => ([], ⟨some verbosity⟩)
  | some _ => (l.record .warn alreadyInitialized, l)

end Logger

end Confine.Log
