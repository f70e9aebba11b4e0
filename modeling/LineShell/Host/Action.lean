/-
# LineShell.Host.Action -- what a running program asks of the system

A child first takes the steps of its entry; after that its program reads and
writes, opens files, sends signals and starts programs of its own.  Reading and
writing are answered with what was possible at once, so a program that has to get
rid of many bytes goes on writing (`Action.writeAll`).
-/
import LineShell.Entry
import LineShell.Host.Store
import LineShell.Script.Work

namespace LineShell

set_option autoImplicit false

/-- How a program opens a file. -/
inductive Opening where
  | read
  /-- For writing at the start; the file is created if it is missing and emptied if it is not. -/
  | truncate
  /-- For writing at the end; the file is created if it is missing. -/
  | append
  /-- For reading and writing at the start; the file is created if it is missing. -/
  | readWrite
  deriving DecidableEq, Repr

/-- What can be known about a file without opening it. -/
structure FileStatus where
  node : NodeId
  content : Content
  mode : Nat

namespace Action

/-- What a program asks of the system. -/
inductive Call where
  | entry (call : Entry.Call)
  | openFile (file : Path) (opening : Opening)
  /-- A second descriptor for a file, the lowest free one from `floor` upwards. -/
  | duplicateFrom (source floor : Descriptor)
  | read (descriptor : Descriptor) (count : Nat)
  | write (descriptor : Descriptor) (bytes : Bytes)
  /-- Send a signal to the process with a number, if there is one. -/
  | signal (target signal : Nat)
  | ownPid
  | enterDirectory (directory : Path)
  | workingDirectory
  | status (file : Path) (followLast : Bool)
  /-- The two ends of a new pipe, the one for reading first. -/
  | pipe
  | fork (work : Script.Work)
  | await (pid : Pid)
  /-- Wait for ever. -/
  | pause

/-- What the system answers. -/
abbrev Call.Answer : Call → Type
  | .entry call => call.Answer
  | .openFile _ _ => Except Errno Descriptor
  | .duplicateFrom _ _ => Except Errno Descriptor
  | .read _ _ => Except Errno Bytes
  | .write _ _ => Except Errno Nat
  | .signal _ _ => Except Errno Unit
  | .ownPid => Pid
  | .enterDirectory _ => Except Errno Unit
  | .workingDirectory => Except Errno Path
  | .status _ _ => Except Errno FileStatus
  | .pipe => Except Errno (Descriptor × Descriptor)
  | .fork _ => Except Errno Pid
  | .await _ => Except Errno WaitStatus
  | .pause => Unit

end Action

/-- A running program, which ends with a value. -/
abbrev Action := Program Action.Call Action.Call.Answer

namespace Action

def system (call : Call) : Action call.Answer :=
  Program.request call

/-- The steps of an entry as steps of a running program. -/
def ofEntry {α : Type} (entry : Entry α) : Action α :=
  entry.lift Call.entry fun _ answer => answer

/-- Write until nothing is left, at most `limit` times. -/
def writeWithin (descriptor : Descriptor) : Nat → Bytes → Action (Except Errno Unit)
  | 0, _ => return .ok ()
  | limit + 1, bytes =>
      if bytes.isEmpty then return .ok ()
      else do
        match ← system (.write descriptor bytes) with
        | .error errno => return .error errno
        | .ok count => writeWithin descriptor limit (bytes.drop count)

/-- Write all bytes; each write that succeeds takes at least one. -/
def writeAll (descriptor : Descriptor) (bytes : Bytes) : Action (Except Errno Unit) :=
  writeWithin descriptor bytes.length bytes

end Action

end LineShell
