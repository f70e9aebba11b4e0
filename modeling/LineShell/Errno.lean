/-
# LineShell.Errno -- why a system call fails

Each cause has its symbol, its number, the description that the shell's own
messages use, and the text that the system's tools print; the two wordings differ
for a few causes.  The causes that are common have names here.  Any other one
comes with its own number and texts (`Errno.Unnamed`), so that a system may fail a
call for whatever cause it has.
-/

namespace LineShell

set_option autoImplicit false

/-- The numbers of the causes that have a name. -/
def Errno.namedNumbers : List Nat :=
  [1, 2, 3, 4, 5, 6, 7, 8, 9, 10, 11, 12, 13, 16, 17, 20, 21, 22, 23, 24, 26, 28, 30, 32, 36, 39, 40]

/-- A cause without a name: its number, and how it is written. -/
structure Errno.Unnamed where
  number : Nat
  symbol : String
  description : String
  systemText : String
  unnamed : number ∉ Errno.namedNumbers
  deriving DecidableEq, Repr

/-- The cause of a failing system call. -/
inductive Errno where
  | EPERM
  | ENOENT
  | ESRCH
  | EINTR
  | EIO
  | ENXIO
  | E2BIG
  | ENOEXEC
  | EBADF
  | ECHILD
  | EAGAIN
  | ENOMEM
  | EACCES
  | EBUSY
  | EEXIST
  | ENOTDIR
  | EISDIR
  | EINVAL
  | ENFILE
  | EMFILE
  | ETXTBSY
  | ENOSPC
  | EROFS
  | EPIPE
  | ENAMETOOLONG
  | ENOTEMPTY
  | ELOOP
  | unnamed (cause : Errno.Unnamed)
  deriving DecidableEq, Repr

namespace Errno

def number : Errno → Nat
  | .EPERM => 1
  | .ENOENT => 2
  | .ESRCH => 3
  | .EINTR => 4
  | .EIO => 5
  | .ENXIO => 6
  | .E2BIG => 7
  | .ENOEXEC => 8
  | .EBADF => 9
  | .ECHILD => 10
  | .EAGAIN => 11
  | .ENOMEM => 12
  | .EACCES => 13
  | .EBUSY => 16
  | .EEXIST => 17
  | .ENOTDIR => 20
  | .EISDIR => 21
  | .EINVAL => 22
  | .ENFILE => 23
  | .EMFILE => 24
  | .ETXTBSY => 26
  | .ENOSPC => 28
  | .EROFS => 30
  | .EPIPE => 32
  | .ENAMETOOLONG => 36
  | .ENOTEMPTY => 39
  | .ELOOP => 40
  | .unnamed cause => cause.number

/-- The symbol by which the cause is known. -/
def symbol : Errno → String
  | .EPERM => "EPERM"
  | .ENOENT => "ENOENT"
  | .ESRCH => "ESRCH"
  | .EINTR => "EINTR"
  | .EIO => "EIO"
  | .ENXIO => "ENXIO"
  | .E2BIG => "E2BIG"
  | .ENOEXEC => "ENOEXEC"
  | .EBADF => "EBADF"
  | .ECHILD => "ECHILD"
  | .EAGAIN => "EAGAIN"
  | .ENOMEM => "ENOMEM"
  | .EACCES => "EACCES"
  | .EBUSY => "EBUSY"
  | .EEXIST => "EEXIST"
  | .ENOTDIR => "ENOTDIR"
  | .EISDIR => "EISDIR"
  | .EINVAL => "EINVAL"
  | .ENFILE => "ENFILE"
  | .EMFILE => "EMFILE"
  | .ETXTBSY => "ETXTBSY"
  | .ENOSPC => "ENOSPC"
  | .EROFS => "EROFS"
  | .EPIPE => "EPIPE"
  | .ENAMETOOLONG => "ENAMETOOLONG"
  | .ENOTEMPTY => "ENOTEMPTY"
  | .ELOOP => "ELOOP"
  | .unnamed cause => cause.symbol

/-- The description in the shell's own messages. -/
def description : Errno → String
  | .EPERM => "Operation not permitted"
  | .ENOENT => "No such file or directory"
  | .ESRCH => "No such process"
  | .EINTR => "Interrupted system call"
  | .EIO => "I/O error"
  | .ENXIO => "No such device or address"
  | .E2BIG => "Argument list too long"
  | .ENOEXEC => "Exec format error"
  | .EBADF => "Bad file number"
  | .ECHILD => "No child processes"
  | .EAGAIN => "Try again"
  | .ENOMEM => "Out of memory"
  | .EACCES => "Permission denied"
  | .EBUSY => "Device or resource busy"
  | .EEXIST => "File exists"
  | .ENOTDIR => "Not a directory"
  | .EISDIR => "Is a directory"
  | .EINVAL => "Invalid argument"
  | .ENFILE => "File table overflow"
  | .EMFILE => "Too many open files"
  | .ETXTBSY => "Text file busy"
  | .ENOSPC => "No space left on device"
  | .EROFS => "Read-only file system"
  | .EPIPE => "Broken pipe"
  | .ENAMETOOLONG => "File name too long"
  | .ENOTEMPTY => "Directory not empty"
  | .ELOOP => "Too many symbolic links encountered"
  | .unnamed cause => cause.description

/-- The text that the system's tools print. -/
def systemText : Errno → String
  | .EIO => "Input/output error"
  | .EBADF => "Bad file descriptor"
  | .EAGAIN => "Resource temporarily unavailable"
  | .ENOMEM => "Cannot allocate memory"
  | .ENFILE => "Too many open files in system"
  | .ELOOP => "Too many levels of symbolic links"
  | .unnamed cause => cause.systemText
  | other => other.description

/-- The numbers of causes with a name are theirs alone. -/
theorem number_mem_namedNumbers {errno : Errno} :
    errno.number ∈ namedNumbers ↔ ∀ cause, errno ≠ .unnamed cause := by
  cases errno with
  | unnamed cause => exact iff_of_false cause.unnamed fun named => named cause rfl
  | _ => exact iff_of_true (by decide) nofun

/-- The symbol with the description. -/
def labelled (errno : Errno) : String :=
  errno.symbol ++ ": " ++ errno.description

/-- The system's text with the number. -/
def numbered (errno : Errno) : String :=
  errno.systemText ++ " (os error " ++ toString errno.number ++ ")"

end Errno

end LineShell
