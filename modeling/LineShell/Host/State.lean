/-
# LineShell.Host.State -- the processes of a system and what they share

A process has a directory, its strings, and descriptors, each of which leads to an
open file.  Processes that inherit or copy a descriptor share the open file and
with it the position.  The shell is one process; every other one is a task, which
runs a program until it ends or is killed and then stays until it is waited for.
-/
import LineShell.Host.Action
import LineShell.Host.Descriptors
import LineShell.Host.Walk

namespace LineShell

set_option autoImplicit false

/-- The number of an open file. -/
abbrev Handle := Nat

/-- An open file. -/
structure OpenFile where
  node : NodeId
  position : Nat
  readable : Bool
  writable : Bool
  /-- Every write goes to the end. -/
  appends : Bool
  deriving DecidableEq, Repr

/-- What belongs to one process. -/
structure Process where
  arguments : List Bytes
  environment : List Bytes
  directory : NodeId
  descriptors : Descriptors Handle

/-- Whether a task runs. -/
inductive Standing where
  | running
  | stopped
  /-- The task has ended and was not yet waited for. -/
  | gone (status : WaitStatus)
  deriving DecidableEq, Repr

/-- A file of a pipe with a name is being opened and waits for the other side. -/
structure Rendezvous where
  handle : Handle
  /-- How often the other side had been opened before. -/
  seen : Nat
  deriving DecidableEq, Repr

/-- A process that runs a program. -/
structure Task where
  pid : Pid
  parent : Pid
  process : Process
  program : Action Int
  standing : Standing
  rendezvous : Option Rendezvous
  /-- Signals that came while the task was stopped. -/
  deferred : List Nat

/-- A system. -/
structure Host where
  store : Store
  files : Array OpenFile
  shellPid : Pid
  shell : Process
  tasks : List Task
  nextPid : Pid

namespace Task

/-- End a task; its descriptors are closed. -/
def leave (task : Task) (status : WaitStatus) : Task :=
  { task with
    process := { task.process with descriptors := .empty }
    program := .done 0
    standing := .gone status
    rendezvous := none
    deferred := [] }

/-- The status of a task that has ended. -/
def status? (task : Task) : Option WaitStatus :=
  match task.standing with
  | .gone status => some status
  | _ => none

end Task

namespace Host

/-! ## Tasks -/

def task? (host : Host) (pid : Pid) : Option Task :=
  host.tasks.find? fun task => task.pid = pid

/-- Put a task in the place of the one with its pid. -/
def setTask (host : Host) (task : Task) : Host :=
  { host with tasks := host.tasks.map fun other => if other.pid = task.pid then task else other }

/-- Forget a task. -/
def removeTask (host : Host) (pid : Pid) : Host :=
  { host with tasks := host.tasks.filter fun task => task.pid ≠ pid }

/-- Start a task. -/
def startTask (host : Host) (parent : Pid) (process : Process) (program : Action Int) : Pid × Host :=
  (host.nextPid,
    { host with
      tasks := host.tasks ++ [⟨host.nextPid, parent, process, program, .running, none, []⟩]
      nextPid := host.nextPid.next })

/-! ## Open files -/

def file (host : Host) (handle : Handle) : OpenFile :=
  host.files.getD handle ⟨Store.rootId, 0, false, false, false⟩

def addFile (host : Host) (file : OpenFile) : Handle × Host :=
  (host.files.size, { host with files := host.files.push file })

def setPosition (host : Host) (handle : Handle) (position : Nat) : Host :=
  { host with files := host.files.modify handle fun file => { file with position := position } }

/-- The handles that a task holds or waits with. -/
def handlesOf (task : Task) : List Handle :=
  task.process.descriptors.entries.map Prod.snd ++ task.rendezvous.toList.map Rendezvous.handle

/-- The handles that are in use. -/
def handles (host : Host) : List Handle :=
  host.shell.descriptors.entries.map Prod.snd ++ host.tasks.flatMap handlesOf

/-- Whether a node is open for reading. -/
def hasReader (host : Host) (node : NodeId) : Bool :=
  host.handles.any fun handle => (host.file handle).node = node && (host.file handle).readable

/-- Whether a node is open for writing. -/
def hasWriter (host : Host) (node : NodeId) : Bool :=
  host.handles.any fun handle => (host.file handle).node = node && (host.file handle).writable

/-! ## Reading and writing -/

/-- How reading or writing went. -/
inductive Transfer (α : Type) where
  | ready (value : Except Errno α) (host : Host)
  | blocked

/-- How much a pipe holds. -/
def channelCapacity : Nat := 65536

/-- Read at most `count` bytes from an open file. -/
def read (host : Host) (handle : Handle) (count : Nat) : Transfer Bytes :=
  let file := host.file handle
  if !file.readable then .ready (.error .EBADF) host
  else
    match host.store.content file.node with
    | .directory _ _ => .ready (.error .EISDIR) host
    | .file bytes =>
        let block := (bytes.extract file.position (file.position + count)).toList
        .ready (.ok block) (host.setPosition handle (file.position + block.length))
    | .channel channel =>
        if channel.pending.isEmpty then
          if host.hasWriter file.node then .blocked else .ready (.ok []) host
        else
          let later := { channel with pending := channel.pending.drop count }
          .ready (.ok (channel.pending.take count))
            { host with store := host.store.setContent file.node (.channel later) }
    | _ => .ready (.ok []) host

/-- The bytes of a file after a write at a position, which may lie behind the end. -/
def overwrite (bytes : ByteArray) (position : Nat) (block : Bytes) : ByteArray :=
  let written : ByteArray := ⟨block.toArray⟩
  if position = bytes.size then bytes ++ written
  else
    let front := bytes.extract 0 position
    let gap : ByteArray := ⟨Array.replicate (position - front.size) 0⟩
    front ++ gap ++ written ++ bytes.extract (position + written.size) bytes.size

/-- Write what is possible at once; how many bytes that was. -/
def write (host : Host) (handle : Handle) (block : Bytes) : Transfer Nat :=
  let file := host.file handle
  if !file.writable then .ready (.error .EBADF) host
  else
    match host.store.content file.node with
    | .file bytes =>
        let position := if file.appends then bytes.size else file.position
        let store := host.store.setContent file.node (.file .empty)
        let store := store.setContent file.node (.file (overwrite bytes position block))
        .ready (.ok block.length)
          ({ host with store := store }.setPosition handle (position + block.length))
    | .channel channel =>
        if !host.hasReader file.node then .ready (.error .EPIPE) host
        else
          let count := channelCapacity - channel.pending.length
          if count = 0 then .blocked
          else
            let later := { channel with pending := channel.pending ++ block.take count }
            .ready (.ok (min count block.length))
              { host with store := host.store.setContent file.node (.channel later) }
    | _ => .ready (.ok block.length) host

/-! ## Opening -/

/-- What is opened for, and whether a missing file is created. -/
def openFileFor (opening : Opening) (node : NodeId) : OpenFile :=
  match opening with
  | .read => ⟨node, 0, true, false, false⟩
  | .truncate => ⟨node, 0, false, true, false⟩
  | .append => ⟨node, 0, false, true, true⟩
  | .readWrite => ⟨node, 0, true, true, false⟩

/-- The mode of a file that is created. -/
def createdMode : Nat := 0o644

/-- The content of a file about a process, as it is when the file is opened. -/
def about (process : Process) (file : ProcessFile) : ByteArray :=
  let strings :=
    match file with
    | .arguments => process.arguments
    | .environment => process.environment
  ⟨(strings.flatMap fun string => string ++ [0]).toArray⟩

/-- The node that a process opens; it is created or emptied as the opening asks. -/
def nodeFor (store : Store) (process : Process) (path : Path) (opening : Opening) :
    Except Errno (NodeId × Store) :=
  let creates := opening ≠ .read
  match Walk.place store ⟨true, creates⟩ process.directory path with
  | .error errno => .error errno
  | .ok (.missing directory name) =>
      if creates then .ok (store.add directory name ⟨.file .empty, createdMode⟩) else .error .ENOENT
  | .ok (.directory node) => if creates then .error .EISDIR else .ok (node, store)
  | .ok (.named _ _ node) =>
      match store.content node with
      | .directory _ _ => if creates then .error .EISDIR else .ok (node, store)
      | .file _ =>
          if opening = .truncate then .ok (node, store.setContent node (.file .empty))
          else .ok (node, store)
      | .process file => .ok (store.allocate ⟨.file (about process file), 0o444⟩)
      | _ => .ok (node, store)

end Host

end LineShell
