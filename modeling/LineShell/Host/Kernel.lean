/-
# LineShell.Host.Kernel -- how a system answers a task

A call is answered at once, or the task is blocked until another one has done
something, or the task never gets an answer because it became another program or
was killed.  `Host.stepTask` takes one step of a task.
-/
import LineShell.Host.Concatenate
import LineShell.Host.Execution
import LineShell.Host.State
import LineShell.Script.Interpreter

namespace LineShell

set_option autoImplicit false

/-- What becomes of a call. -/
inductive Reply (α : Type) where
  | answer (value : α) (host : Host)
  /-- The system has changed, but there is no answer yet. -/
  | later (host : Host)
  | blocked
  /-- The task that made the call goes on in another way, or not at all. -/
  | diverted (host : Host)

namespace Tool

/-- The program of a tool. -/
def program (tool : Tool) (arguments environment : List Bytes) : Action Int :=
  match tool with
  | .interpreter => Script.Interpreter.program arguments environment
  | .concatenate => Concatenate.program arguments

end Tool

namespace Task

/-! ## Signals -/

/-- Signals up to this number can be reported. -/
def lastReportable : Nat := 31

def isIgnored (signal : Nat) : Bool :=
  [0, 13, 17, 23, 28].contains signal

def stops (signal : Nat) : Bool :=
  [19, 20, 21, 22].contains signal

def continueSignal : Nat := 18

def killSignal : Nat := 9

/-- What a signal does to a task that is not stopped. -/
def react (task : Task) (signal : Nat) : Task :=
  if isIgnored signal || signal = continueSignal then task
  else if stops signal then { task with standing := .stopped }
  else task.leave (.signaled signal false)

/-- Deliver a signal.  A stopped task reacts only to those that kill it or let it go on; the others wait. -/
def deliver (task : Task) (signal : Nat) : Task :=
  match task.standing with
  | .gone _ => task
  | .running => task.react signal
  | .stopped =>
      if signal = killSignal then task.react signal
      else if signal = continueSignal then
        task.deferred.foldl (fun task signal =>
          match task.standing with
          | .running => task.react signal
          | _ => task) { task with standing := .running, deferred := [] }
      else if stops signal then task
      else { task with deferred := task.deferred ++ [signal] }

end Task

namespace Host

/-- Signals are below this number. -/
def signalLimit : Nat := 65

/-- Send a signal to the process with a number. -/
def send (host : Host) (target signal : Nat) : Except Errno Host :=
  if signalLimit ≤ signal then .error .EINVAL
  else
    match host.tasks.find? fun task => task.pid.number = target with
    | some task => .ok (host.setTask (task.deliver signal))
    | none => if target = host.shellPid.number then .ok host else .error .ESRCH

/-! ## Descriptors -/

/-- Change what belongs to the process of a task. -/
def setProcess (host : Host) (task : Task) (process : Process) : Host :=
  host.setTask { task with process := process }

def setDescriptors (host : Host) (task : Task) (descriptors : Descriptors Handle) : Host :=
  host.setProcess task { task.process with descriptors := descriptors }

/-- The lowest free descriptor for a handle. -/
def addDescriptor (host : Host) (task : Task) (handle : Handle) : Reply (Except Errno Descriptor) :=
  let (descriptor, descriptors) := task.process.descriptors.add 0 handle
  .answer (.ok descriptor) (host.setDescriptors { task with rendezvous := none } descriptors)

/-- Let one descriptor be the file of another. -/
def duplicate (host : Host) (task : Task) (source target : Descriptor) : Reply (Except Errno Unit) :=
  match task.process.descriptors.get? source with
  | none => .answer (.error .EBADF) host
  | some handle => .answer (.ok ()) (host.setDescriptors task (task.process.descriptors.set target handle))

def close (host : Host) (task : Task) (descriptor : Descriptor) : Reply (Except Errno Unit) :=
  match task.process.descriptors.get? descriptor with
  | none => .answer (.error .EBADF) host
  | some _ => .answer (.ok ()) (host.setDescriptors task (task.process.descriptors.erase descriptor))

/-- The two ends of a new pipe as the lowest free descriptors of a table. -/
def makePipe (host : Host) (descriptors : Descriptors Handle) :
    (Descriptor × Descriptor) × Descriptors Handle × Host :=
  let (node, store) := host.store.allocate ⟨.channel ⟨[], 1, 1⟩, 0o600⟩
  let (reading, host) := { host with store := store }.addFile ⟨node, 0, true, false, false⟩
  let (writing, host) := host.addFile ⟨node, 0, false, true, false⟩
  let (first, descriptors) := descriptors.add 0 reading
  let (second, descriptors) := descriptors.add 0 writing
  ((first, second), descriptors, host)

/-! ## Opening -/

/-- Whether the other side of a pipe with a name is there, or has been since a count was taken. -/
def hasPartner (host : Host) (file : OpenFile) (channel : Channel) (seen : Nat) : Bool :=
  if file.readable then host.hasWriter file.node || decide (seen < channel.writersSeen)
  else host.hasReader file.node || decide (seen < channel.readersSeen)

/-- Open a pipe with a name: one side waits for the other. -/
def openChannel (host : Host) (task : Task) (file : OpenFile) (channel : Channel) :
    Reply (Except Errno Descriptor) :=
  let idle := !host.hasReader file.node && !host.hasWriter file.node
  let counted : Channel :=
    { pending := if idle then [] else channel.pending
      readersSeen := channel.readersSeen + (if file.readable then 1 else 0)
      writersSeen := channel.writersSeen + (if file.writable then 1 else 0) }
  let store := host.store.setContent file.node (.channel counted)
  let (handle, host) := { host with store := store }.addFile file
  if file.readable && file.writable then host.addDescriptor task handle
  else
    let seen := if file.readable then counted.writersSeen else counted.readersSeen
    if host.hasPartner file counted seen then host.addDescriptor task handle
    else .later (host.setTask { task with rendezvous := some ⟨handle, seen⟩ })

/-- Open a file. -/
def openPath (host : Host) (task : Task) (path : Path) (opening : Opening) :
    Reply (Except Errno Descriptor) :=
  match task.rendezvous with
  | some rendezvous =>
      let file := host.file rendezvous.handle
      match host.store.content file.node with
      | .channel channel =>
          if host.hasPartner file channel rendezvous.seen then
            host.addDescriptor task rendezvous.handle
          else .blocked
      | _ => host.addDescriptor task rendezvous.handle
  | none =>
      match nodeFor host.store task.process path opening with
      | .error errno => .answer (.error errno) host
      | .ok (node, store) =>
          let host := { host with store := store }
          let file := openFileFor opening node
          match host.store.content node with
          | .channel channel => host.openChannel task file channel
          | _ =>
              let (handle, host) := host.addFile file
              host.addDescriptor task handle

/-- How a child opens a file for a stream. -/
def openingOf : Entry.Access → Opening
  | .read => .read
  | .truncate => .truncate

/-! ## Other calls -/

/-- Move a task to a directory. -/
def enterDirectory (host : Host) (task : Task) (path : Path) : Reply (Except Errno Unit) :=
  match Walk.findDirectory host.store task.process.directory path with
  | .error errno => .answer (.error errno) host
  | .ok directory =>
      .answer (.ok ()) (host.setProcess task { task.process with directory := directory })

/-- Become another program; there is an answer only when that fails. -/
def execute (host : Host) (task : Task) (file : Path) (arguments environment : List Bytes) :
    Reply Errno :=
  match Execution.resolve host.store task.process.directory file arguments environment with
  | .error errno => .answer errno host
  | .ok (tool, arguments) =>
      let process := { task.process with arguments := arguments, environment := environment }
      .diverted (host.setTask
        { task with process := process, program := tool.program arguments environment })

/-- Wait for a task; one that has ended is forgotten.  The status of a signal that cannot be reported is
lost. -/
def collect (host : Host) (parent pid : Pid) : Option (Except Errno WaitStatus × Host) :=
  match host.task? pid with
  | none => some (.error .ECHILD, host)
  | some task =>
      if task.parent ≠ parent then some (.error .ECHILD, host)
      else
        match task.status? with
        | none => none
        | some status =>
            match status with
            | .signaled signal _ =>
                if Task.lastReportable < signal then some (.error .EINVAL, host.removeTask pid)
                else some (.ok status, host.removeTask pid)
            | _ => some (.ok status, host.removeTask pid)

/-- What can be known about a file. -/
def statusOf (host : Host) (task : Task) (path : Path) (followLast : Bool) :
    Except Errno FileStatus :=
  let found :=
    if followLast then Walk.find host.store task.process.directory path
    else Walk.findLink host.store task.process.directory path
  found.map fun id => ⟨id, host.store.content id, (host.store.node id).mode⟩

/-- Answer a transfer. -/
def transferred {α : Type} : Transfer α → Reply (Except Errno α)
  | .ready value host => .answer value host
  | .blocked => .blocked

/-- Write to a descriptor. -/
def writeTo (host : Host) (task : Task) (descriptor : Descriptor) (bytes : Bytes) :
    Reply (Except Errno Nat) :=
  match task.process.descriptors.get? descriptor with
  | none => .answer (.error .EBADF) host
  | some handle => transferred (host.write handle bytes)

/-- Answer a step of an entry. -/
def answerEntry (host : Host) (task : Task) : (call : Entry.Call) → Reply call.Answer
  | .enterDirectory directory => host.enterDirectory task ⟨directory.bytes⟩
  | .openFile file access => host.openPath task ⟨file.bytes⟩ (openingOf access)
  | .duplicate source target => host.duplicate task source target
  | .close descriptor => host.close task descriptor
  | .execute program arguments environment =>
      host.execute task ⟨program.bytes⟩ (arguments.map NulFree.bytes) (environment.map NulFree.bytes)
  | .write descriptor bytes => host.writeTo task descriptor bytes

/-- Answer a call of a task. -/
def answerTask (host : Host) (task : Task) : (call : Action.Call) → Reply call.Answer
  | .entry call => host.answerEntry task call
  | .openFile file opening => host.openPath task file opening
  | .duplicateFrom source floor =>
      match task.process.descriptors.get? source with
      | none => .answer (.error .EBADF) host
      | some handle =>
          let (descriptor, descriptors) := task.process.descriptors.add floor handle
          .answer (.ok descriptor) (host.setDescriptors task descriptors)
  | .read descriptor count =>
      match task.process.descriptors.get? descriptor with
      | none => .answer (.error .EBADF) host
      | some handle => transferred (host.read handle count)
  | .write descriptor bytes => host.writeTo task descriptor bytes
  | .signal target signal =>
      match host.send target signal with
      | .error errno => .answer (.error errno) host
      | .ok later =>
          match (later.task? task.pid).map Task.standing with
          | some (.gone _) => .diverted later
          | _ => .answer (.ok ()) later
  | .ownPid => .answer task.pid host
  | .enterDirectory directory => host.enterDirectory task directory
  | .workingDirectory =>
      .answer ((host.store.pathOf? task.process.directory).elim (.error .ENOENT) .ok) host
  | .status file followLast => .answer (host.statusOf task file followLast) host
  | .pipe =>
      let (ends, descriptors, host) := host.makePipe task.process.descriptors
      .answer (.ok ends) (host.setDescriptors task descriptors)
  | .fork work =>
      let (pid, host) := host.startTask task.pid task.process (Script.Interpreter.child work)
      .answer (.ok pid) host
  | .await pid =>
      match host.collect task.pid pid with
      | none => .blocked
      | some (answer, host) => .answer answer host
  | .pause => .blocked

/-! ## Steps -/

/-- An exit code keeps its last eight bits. -/
def exitCode (code : Int) : Int :=
  code % 256

/-- Give a task the program that it goes on with. -/
def resume (host : Host) (pid : Pid) (program : Action Int) : Host :=
  match host.task? pid with
  | some task => host.setTask { task with program := program }
  | none => host

/-- Take one step of a task; nothing when there is none to take. -/
def stepTask (host : Host) (task : Task) : Option Host :=
  match task.standing with
  | .running =>
      match task.program with
      | .done code => some (host.setTask (task.leave (.exited (exitCode code))))
      | .ask call again next =>
          match host.answerTask task call with
          | .blocked => none
          | .later host => some host
          | .diverted host => some host
          | .answer value host => some (if again value then host else host.resume task.pid (next value))
  | _ => none

/-- Take steps of a task until there is none to take, at most `limit`; whether one was taken. -/
def runTask (pid : Pid) : Nat → Bool → Host → Bool × Host
  | 0, moved, host => (moved, host)
  | limit + 1, moved, host =>
      match (host.task? pid).bind host.stepTask with
      | none => (moved, host)
      | some later => runTask pid limit true later

/-- How many steps a task may take before another one has its turn. -/
def turn : Nat := 10000

/-- Give each task a turn, in the order of their starts; whether a step was taken. -/
def round (host : Host) : Bool × Host :=
  host.tasks.foldl (fun (moved, host) task =>
    let (more, host) := host.runTask task.pid turn false
    (moved || more, host)) (false, host)

/-- Let the tasks run until the system has an answer.  There is none when no task can move any more, or
after `limit` rounds. -/
def runUntil {α : Type} (ready : Host → Option (α × Host)) : Nat → Host → Option (α × Host)
  | 0, _ => none
  | limit + 1, host =>
      match ready host with
      | some found => some found
      | none =>
          match host.round with
          | (true, later) => runUntil ready limit later
          | (false, _) => none

/-- The bound for everything that is waited for. -/
def patience : Nat := 1000000000

end Host

end LineShell
