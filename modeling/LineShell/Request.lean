/-
# LineShell.Request -- what the shell asks of the system

The shell itself tests and resolves paths, makes a pipe, starts children, and
waits for them in two ways: `wait` blocks until there is something to report,
`poll` answers at once.  A wait always names one child.
-/
import LineShell.Entry
import LineShell.WaitStatus

namespace LineShell

set_option autoImplicit false

/-- A call of the shell. -/
inductive Request where
  | pathExists (path : Path)
  | canonicalize (path : Path)
  | isDirectory (path : Path)
  | pipe
  | close (descriptor : Descriptor)
  | fork (child : Child)
  | wait (pid : Pid)
  | poll (pid : Pid)
  deriving DecidableEq

namespace Request

/-- The two ends of a pipe. -/
structure Ends where
  read : Descriptor
  write : Descriptor
  deriving DecidableEq, Repr

/-- What the system answers to a call of the shell. -/
abbrev Answer : Request → Type
  | .pathExists _ => Bool
  | .canonicalize _ => Except Errno Path
  | .isDirectory _ => Bool
  | .pipe => Except Errno Ends
  | .close _ => Unit
  | .fork _ => Except Errno Pid
  | .wait _ => Except Errno WaitStatus
  | .poll _ => Except Errno WaitStatus

end Request

/-- A part of the shell. -/
abbrev Shell := Program Request Request.Answer

namespace Shell

/-- Ask the system once. -/
def system (request : Request) : Shell request.Answer :=
  Program.request request

/-- Ask the system until the answer is usable. -/
def repeatedly (request : Request) (again : request.Answer → Bool) : Shell request.Answer :=
  Program.insist request again

/-- The first of the paths that exists. -/
def firstExisting : List Path → Shell (Option Path)
  | [] => return none
  | path :: rest => do
      if ← system (.pathExists path) then return some path
      else firstExisting rest

/-- Find the file that a command name stands for. -/
def locate (name : String) (surroundings : Surroundings) : Shell (Except NotFound Path) := do
  let paths := SearchPath.candidates name surroundings.searchPath surroundings.directory
  match ← firstExisting paths with
  | some path => return .ok path
  | none => return .error ⟨name⟩

end Shell

end LineShell
