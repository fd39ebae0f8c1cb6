/-! # The output stream

The standard output of a program collects text in a buffer until it is flushed. The first text sets
the buffer up, which takes a system call.
-/

namespace Confine

/-- An output stream and its descriptor. -/
structure Output where
  /-- Whether the descriptor is open. What is written to a closed one is lost. -/
  isOpen : Bool
  /-- Whether the buffer was set up. -/
  ready : Bool
  buffered : String
  /-- What has reached the descriptor. -/
  delivered : String
  deriving Repr

namespace Output

/-- A stream on a descriptor, before its first use. -/
def fresh (isOpen : Bool) : Output :=
  ⟨isOpen, false, "", ""⟩

/-- Put text into the buffer. Empty text does not even set the buffer up. -/
def put (o : Output) (text : String) : Output :=
  if text.isEmpty then o else { o with ready := true, buffered := o.buffered ++ text }

/-- Send the buffer to the descriptor. -/
def flush (o : Output) : Output :=
  if o.isOpen then { o with buffered := "", delivered := o.delivered ++ o.buffered } else o

end Output

end Confine
