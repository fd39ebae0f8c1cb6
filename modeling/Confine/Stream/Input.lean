import Confine.Errno

/-! # The input stream

The standard input of a program as a queue of bytes over a descriptor, with one byte of push-back
and indicators for the end of input and for errors, which stay until they are cleared. The first
read sets the stream's buffer up, which takes a system call; `prime` provokes that early and leaves
no other trace.
-/

namespace Confine

/-- The access mode and the status flags of an open descriptor. -/
abbrev DescriptorFlags := BitVec 32

namespace DescriptorFlags

/-- A read that would have to wait fails. -/
def nonblock : DescriptorFlags := 0o4000

/-- The flags that can be changed: to append, not to block, to signal, to bypass the cache and to
leave the access time alone. -/
def changeable : DescriptorFlags := 0o1066000

/-- Whether reads do not wait. -/
def nonblocking (flags : DescriptorFlags) : Bool :=
  flags &&& nonblock = nonblock

/-- The flags once they are set to others. Those that cannot be changed stay as they are. -/
def set (flags others : DescriptorFlags) : DescriptorFlags :=
  flags &&& ~~~changeable ||| others &&& changeable

end DescriptorFlags

/-- What the input descriptor refers to. -/
inductive InputSource where
  /-- A file, or a pipe whose writer has gone, with these bytes to come. -/
  | bytes (pending : List UInt8)
  /-- A pipe whose writer is there and silent. -/
  | idle
  /-- A descriptor that only names a path: it has flags, but they cannot be changed, nor can it be
  read. -/
  | pathOnly
  /-- No descriptor. -/
  | closed
  deriving Repr, DecidableEq

/-- An input stream and its descriptor. -/
structure Input where
  source : InputSource
  pushedBack : Option UInt8
  /-- The indicator for the end of input. -/
  atEnd : Bool
  /-- The indicator for errors. -/
  failed : Bool
  /-- The flags of the descriptor. -/
  flags : DescriptorFlags
  /-- Whether the buffer was set up. -/
  ready : Bool
  deriving Repr, DecidableEq

/-- Why a stream was not primed. -/
inductive PrimeRefusal where
  /-- The flags of the descriptor could not be read. -/
  | flagsUnreadable
  /-- The flags of the descriptor could not be changed. -/
  | flagsFixed
  deriving Repr, DecidableEq

/-- What comes of reading one byte. -/
inductive ReadOutcome where
  | byte (byte : UInt8)
  /-- No byte, and an indicator says why. -/
  | nothing
  /-- The read never returns. -/
  | blocked
  deriving Repr, DecidableEq

namespace Input

/-- A stream on a blocking descriptor that is open for reading, before its first use. -/
def fresh (source : InputSource) : Input :=
  { source, pushedBack := none, atEnd := false, failed := false, flags := 0, ready := false }

/-- The flags of the descriptor, where there is one. -/
def flags? (i : Input) : Option DescriptorFlags :=
  match i.source with
  | .closed => none
  | _ => some i.flags

/-- Set the flags of the descriptor, where that can be done. -/
def setFlags? (i : Input) (flags : DescriptorFlags) : Option Input :=
  match i.source with
  | .closed | .pathOnly => none
  | _ => some { i with flags := i.flags.set flags }

/-- Read one byte. Once the end of input was met there is none, until the indicator is cleared. -/
def getByte (i : Input) : ReadOutcome × Input :=
  match i.pushedBack with
  | some byte => (.byte byte, { i with pushedBack := none })
  | none =>
    if i.atEnd then (.nothing, i)
    else match i.source with
      | .bytes (byte :: rest) =>
        (.byte byte, { i with source := .bytes rest, ready := true })
      | .bytes [] => (.nothing, { i with atEnd := true, ready := true })
      | .idle =>
        if i.flags.nonblocking then (.nothing, { i with failed := true, ready := true })
        else (.blocked, { i with ready := true })
      | .pathOnly | .closed => (.nothing, { i with failed := true, ready := true })

/-- Push a byte back, to be read next. -/
def unget (i : Input) (byte : UInt8) : Input :=
  { i with pushedBack := some byte, atEnd := false }

/-- Clear both indicators. -/
def clearIndicators (i : Input) : Input :=
  { i with atEnd := false, failed := false }

/-- Read bytes until there are no more; at most `fuel` of them. -/
def readUpTo : (fuel : Nat) → Input → Option (List UInt8) × Input
  | 0, i => (some [], i)
  | fuel + 1, i =>
    match i.getByte with
    | (.byte byte, i) =>
      let (rest, i) := i.readUpTo fuel
      (rest.map (byte :: ·), i)
    | (.nothing, i) => (some [], i)
    | (.blocked, i) => (none, i)

/-- The number of reads after which a stream has nothing left. -/
def readBound (i : Input) : Nat :=
  match i.source with
  | .bytes pending => pending.length + 2
  | _ => 2

/-- Read the stream to its end. There is no result where that blocks for ever. -/
def readAll (i : Input) : Option (List UInt8) × Input :=
  i.readUpTo i.readBound

/-- Read one byte without blocking and push it back, so that the stream is set up. The indicators
and the flags of the descriptor are left as a stream that was never read has them. -/
def prime (i : Input) : Option PrimeRefusal × Input :=
  match i.flags? with
  | none => (some .flagsUnreadable, i)
  | some before =>
    match i.setFlags? (before ||| .nonblock) with
    | none => (some .flagsFixed, i)
    | some i =>
      let i :=
        match i.getByte with
        | (.byte byte, i) => i.unget byte
        | (_, i) => i.clearIndicators
      (none, (i.setFlags? before).getD i)

end Input

namespace PrimeRefusal

/-- What the log says about a stream that was not primed. -/
def message : PrimeRefusal → String
  | flagsUnreadable =>
    s!"Could not read stdin flags ({Errno.badDescriptor.message}), not priming stdin"
  | flagsFixed =>
    s!"Could not make stdin non-blocking ({Errno.badDescriptor.message}), not priming stdin"

end PrimeRefusal

end Confine
