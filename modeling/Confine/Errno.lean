/-! # Error numbers of the system -/

namespace Confine

/-- An error number, as a system call or a C function reports it. -/
structure Errno where
  code : Nat
  deriving Repr, DecidableEq

namespace Errno

/-- A descriptor is closed, or does not allow what is asked of it. -/
def badDescriptor : Errno := ⟨9⟩
/-- There is no memory left. -/
def outOfMemory : Errno := ⟨12⟩
/-- An argument makes no sense. -/
def invalidArgument : Errno := ⟨22⟩

/-- The names of the error numbers from 1 on. -/
def names : List String :=
  ["EPERM", "ENOENT", "ESRCH", "EINTR", "EIO", "ENXIO", "E2BIG", "ENOEXEC", "EBADF", "ECHILD",
    "EAGAIN", "ENOMEM", "EACCES", "EFAULT", "ENOTBLK", "EBUSY", "EEXIST", "EXDEV", "ENODEV",
    "ENOTDIR", "EISDIR", "EINVAL", "ENFILE", "EMFILE", "ENOTTY", "ETXTBSY", "EFBIG", "ENOSPC",
    "ESPIPE", "EROFS", "EMLINK", "EPIPE", "EDOM", "ERANGE", "EDEADLK", "ENAMETOOLONG", "ENOLCK",
    "ENOSYS", "ENOTEMPTY", "ELOOP"]

/-- The name of an error number, or the number itself where it has none here. -/
def name (e : Errno) : String :=
  if e.code = 0 then s!"Errno({e.code})"
  else (names[e.code - 1]?).getD s!"Errno({e.code})"

/-- An error number in words. -/
def message (e : Errno) : String :=
  s!"os error {e.code}"

end Errno

end Confine
