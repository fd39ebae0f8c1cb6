/-! # Log levels

A record has a level, and a verbosity is the least urgent level that is still written, or none at
all.
-/

namespace Confine.Log

/-- The urgency of a record, most urgent first. -/
inductive Level where
  | error
  | warn
  | info
  | debug
  | trace
  deriving Repr, DecidableEq

/-- The levels that are written: those up to a level, or none. -/
inductive Verbosity where
  | off
  | upTo (level : Level)
  deriving Repr, DecidableEq

namespace Level

/-- All levels, most urgent first. -/
def all : List Level :=
  [error, warn, info, debug, trace]

/-- The levels counted from the most urgent one. -/
def rank : Level → Nat
  | error => 1
  | warn => 2
  | info => 3
  | debug => 4
  | trace => 5

/-- The level as log lines show it. -/
def name : Level → String
  | error => "ERROR"
  | warn => "WARN"
  | info => "INFO"
  | debug => "DEBUG"
  | trace => "TRACE"

end Level

namespace Verbosity

/-- All verbosities, from silent to everything. -/
def all : List Verbosity :=
  off :: Level.all.map upTo

/-- The name of a verbosity: that of the last level it admits. -/
def name : Verbosity → String
  | off => "OFF"
  | upTo level => level.name

/-- Whether records of a level are written. -/
def admits : Verbosity → Level → Bool
  | off, _ => false
  | upTo most, level => level.rank ≤ most.rank

/-- The verbosity with a name, in letters of either case. -/
def ofName? (name : List Char) : Option Verbosity :=
  all.find? fun v => v.name.toList = name.map Char.toUpper

end Verbosity

end Confine.Log
