/-
# LineShell.Host.Service -- how a system answers the shell

The shell's calls are answered at once, except for a blocking wait: the other
processes run while the shell waits, and only then.  There is no answer to a wait
that would last for ever.
-/
import LineShell.Host.Kernel
import LineShell.Request

namespace LineShell

set_option autoImplicit false

namespace Host

/-- A path that the system can be asked about. -/
def askable (path : Path) : Bool :=
  !path.bytes.contains 0

/-- Whether a path leads anywhere. -/
def pathExists (host : Host) (path : Path) : Bool :=
  askable path && (Walk.find host.store host.shell.directory path).toOption.isSome

/-- The path without links that leads to the same file. -/
def canonicalize (host : Host) (path : Path) : Except Errno Path :=
  if askable path then Walk.canonical host.store host.shell.directory path else .error .EINVAL

def isDirectoryAt (host : Host) (path : Path) : Bool :=
  askable path && (Walk.findDirectory host.store host.shell.directory path).toOption.isSome

/-- Wait for a child of the shell. -/
def waitFor (host : Host) (pid : Pid) : Option (Except Errno WaitStatus × Host) :=
  runUntil (fun host => host.collect host.shellPid pid) patience host

/-- Answer a call of the shell. -/
def answerShell : (request : Request) → Host → Option (request.Answer × Host)
  | .pathExists path, host => some (host.pathExists path, host)
  | .canonicalize path, host => some (host.canonicalize path, host)
  | .isDirectory path, host => some (host.isDirectoryAt path, host)
  | .pipe, host =>
      let ((reading, writing), descriptors, host) := host.makePipe host.shell.descriptors
      some (.ok ⟨reading, writing⟩, { host with shell := { host.shell with descriptors := descriptors } })
  | .close descriptor, host =>
      let descriptors := host.shell.descriptors.erase descriptor
      some ((), { host with shell := { host.shell with descriptors := descriptors } })
  | .fork child, host =>
      let (pid, host) := host.startTask host.shellPid host.shell (Action.ofEntry child.steps)
      some (.ok pid, host)
  | .wait pid, host => host.waitFor pid
  | .poll pid, host =>
      match host.collect host.shellPid pid with
      | some found => some found
      | none => some (.ok .stillAlive, host)

/-- How often a call is repeated. -/
def repetitions : Nat := 1000000

/-- Run a part of the shell on a system. -/
def runShell {α : Type} (program : Shell α) (host : Host) : Option (α × Host) :=
  program.runWith answerShell repetitions host

end Host

end LineShell
