/-
# LineShell.Host.Bench -- a session on a system, one step after the other

A bench has a session and the system that it runs on.  Every step that may start
children gets files for the three standard streams; what children have written is
read from them after the step, or, for a child in the background, when it has
ended.  Children in the background are numbered from 1 in the order of their
starts.

A step has no result when it would wait for ever.
-/
import LineShell.Host.Service
import LineShell.Host.Tree
import LineShell.Session

namespace LineShell

set_option autoImplicit false

/-- The files that hold what children wrote. -/
structure Capture where
  output : NodeId
  errors : NodeId
  deriving DecidableEq, Repr

/-- What children wrote. -/
structure Written where
  output : Bytes
  errors : Bytes
  deriving DecidableEq

/-- A child in the background, and the files of the step that started it if it had some. -/
structure Started where
  pid : Pid
  capture : Option Capture
  deriving DecidableEq, Repr

/-- A session on a system. -/
structure Bench where
  host : Host
  /-- The directory that the files of the bench are below. -/
  root : NodeId
  session : Session
  started : List Started

namespace Host

/-- A file that no directory names. -/
def addHiddenFile (host : Host) (contents : Bytes) : NodeId × Host :=
  let (node, store) := host.store.allocate ⟨.file ⟨contents.toArray⟩, 0o600⟩
  (node, { host with store := store })

/-- Give the shell an input and two empty files for its output. -/
def attachStreams (host : Host) (input : Bytes) : Capture × Host :=
  let (source, host) := host.addHiddenFile input
  let (output, host) := host.addHiddenFile []
  let (errors, host) := host.addHiddenFile []
  let (first, host) := host.addFile (openFileFor .read source)
  let (second, host) := host.addFile (openFileFor .append output)
  let (third, host) := host.addFile (openFileFor .append errors)
  let descriptors := ((Descriptors.empty.set 0 first).set 1 second).set 2 third
  (⟨output, errors⟩, { host with shell := { host.shell with descriptors := descriptors } })

/-- Take the streams of the shell away. -/
def detachStreams (host : Host) : Host :=
  { host with shell := { host.shell with descriptors := .empty } }

/-- The contents of a file. -/
def contents (host : Host) (node : NodeId) : Bytes :=
  match host.store.content node with
  | .file bytes => bytes.toList
  | _ => []

def written (host : Host) (capture : Capture) : Written :=
  ⟨host.contents capture.output, host.contents capture.errors⟩

/-- Run the other processes until a task has ended or is no longer known. -/
def settle (host : Host) (pid : Pid) : Option Host :=
  let ended (host : Host) : Option (Unit × Host) :=
    match host.task? pid with
    | none => some ((), host)
    | some task => task.status?.map fun _ => ((), host)
  (runUntil ended patience host).map Prod.snd

end Host

namespace Bench

/-- A fresh system whose shell is in a directory of its own at `path`. -/
def newHost (path : Path) (environment : List Bytes) : NodeId × Host :=
  let (root, store) := Store.standard.makeDirectories Store.rootId (Store.namesOf path.bytes)
  (root, {
    store := store
    files := #[]
    shellPid := 1000
    shell := ⟨[Bytes.ofText "minish"], environment, root, .empty⟩
    tasks := []
    nextPid := 1001 })

/-- A bench with a new session. -/
def start (path : Path) (surroundings : Surroundings) : Bench :=
  let (root, host) := newHost path surroundings.environment.entries
  ⟨host, root, .start surroundings, []⟩

/-! ## Children -/

/-- The pid of a numbered child. -/
def pid? (bench : Bench) (number : Nat) : Option Pid :=
  if number = 0 then none else bench.started[number - 1]?.map Started.pid

/-- The number of a child. -/
def numberOf? (bench : Bench) (pid : Pid) : Option Nat :=
  (bench.started.findIdx? fun child => child.pid = pid).map (· + 1)

/-- Number a child. -/
def enlist (bench : Bench) (pid : Pid) (capture : Option Capture) : Bench :=
  { bench with started := bench.started ++ [⟨pid, capture⟩] }

/-- Run a part of the shell. -/
def run {α : Type} (bench : Bench) (program : Shell α) : Option (α × Bench) :=
  (bench.host.runShell program).map fun (value, host) => (value, { bench with host := host })

/-- Run a part of the shell with streams of its own. -/
def runWithStreams {α : Type} (bench : Bench) (input : Bytes) (program : Shell α) :
    Option (α × Capture × Bench) := do
  let (capture, host) := bench.host.attachStreams input
  let (value, host) ← host.runShell program
  return (value, capture, { bench with host := host.detachStreams })

/-- Number the child that a step started, or read what its children wrote. -/
def conclude (bench : Bench) (capture : Capture) (started : Option Pid) : Option Written × Bench :=
  match started with
  | some pid => (none, bench.enlist pid (some capture))
  | none => (some (bench.host.written capture), bench)

/-- The child that the notices of a line are about. -/
def startedIn : List Notice → Option Pid
  | [] => none
  | .started pid :: _ => some pid
  | _ :: rest => startedIn rest

/-! ## Steps -/

/-- Run a line. -/
def runLine (bench : Bench) (line : String) (input : Bytes) :
    Option (Session.Outcome × Option Written × Bench) := do
  let (outcome, capture, bench) ← bench.runWithStreams input (bench.session.runLine line)
  let (written, bench) :=
    { bench with session := outcome.session }.conclude capture (startedIn outcome.notices)
  return (outcome, written, bench)

/-- Run a command. -/
def execute (bench : Bench) (command : Command) (background : Bool) (input : Bytes) :
    Option (Except LaunchError Launched × Option Written × Bench) := do
  let ((result, session), capture, bench) ←
    bench.runWithStreams input (bench.session.execute command background)
  let started :=
    match result with
    | .ok (.started job) => some job.pid
    | _ => none
  let (written, bench) := { bench with session := session }.conclude capture started
  return (result, written, bench)

/-- Run a pipe. -/
def pipe (bench : Bench) (left right : Command) (input : Bytes) :
    Option (Except LaunchError Int × Written × Bench) := do
  let (result, capture, bench) ←
    bench.runWithStreams input (Launch.pipe bench.session.toSurroundings left right)
  return (result, bench.host.written capture, bench)

/-- Change the directory. -/
def changeDirectory (bench : Bench) (target : Option String) :
    Option (Option DirectoryError × Bench) := do
  let ((changed, session), bench) ← bench.run (bench.session.changeDirectory target)
  let error :=
    match changed with
    | .ok () => none
    | .error error => some error
  return (error, { bench with session := session })

/-- Start a child that exits with a code at once, or waits for ever. -/
def spawn (bench : Bench) (code : Option Int) (background push : Bool) : Nat × Bench :=
  let program : Action Int :=
    match code with
    | some code => .done code
    | none => .ask .pause (fun _ => true) fun _ => .done 0
  let (pid, host) := bench.host.startTask bench.host.shellPid bench.host.shell program
  let session := if push then bench.session.register ⟨pid, background⟩ else bench.session
  let bench := { bench with host := host, session := session }.enlist pid none
  (bench.started.length, bench)

/-- Register a child, also a second time. -/
def register (bench : Bench) (pid : Pid) : Bench :=
  { bench with session := bench.session.register ⟨pid, true⟩ }

/-- Wait for a child as for one in the foreground. -/
def wait (bench : Bench) (pid : Pid) : Option (Except Errno Int × Bench) :=
  bench.run (Job.await pid)

/-- Wait until a child has ended and leave it uncollected; what it wrote. -/
def settle (bench : Bench) (pid : Pid) : Option (Written × Bench) := do
  let host ← bench.host.settle pid
  let capture := (bench.started.find? fun child => child.pid = pid).bind Started.capture
  return (capture.elim ⟨[], []⟩ host.written, { bench with host := host })

/-- Send a signal to a child. -/
def signal (bench : Bench) (pid : Pid) (signal : Nat) : Bench :=
  match bench.host.send pid.number signal with
  | .ok host => { bench with host := host }
  | .error _ => bench

/-- Collect a child without the session. -/
def steal (bench : Bench) (pid : Pid) : Option Bench :=
  (bench.host.waitFor pid).map fun (_, host) => { bench with host := host }

/-- Poll the registry once. -/
def poll (bench : Bench) : Option (Poll × Bench) := do
  let ((poll, jobs), bench) ← bench.run bench.session.jobs.pollOnce
  return (poll, { bench with session := { bench.session with jobs := jobs } })

/-- Drain the registry. -/
def drain (bench : Bench) : Option (List Collected × Bench) := do
  let ((collected, jobs), bench) ← bench.run bench.session.jobs.drain
  return (collected, { bench with session := { bench.session with jobs := jobs } })

/-- Collect jobs; the notices about them. -/
def reap (bench : Bench) : Option (List Notice × Bench) := do
  let ((notices, session), bench) ← bench.run bench.session.reap
  return (notices, { bench with session := session })

/-- Give a variable of the session a value. -/
def setVariable (bench : Bench) (name value : Bytes) : Bench :=
  { bench with session := { bench.session with
      environment := bench.session.environment.assign name value } }

/-! ## Files -/

/-- Change the files of the bench. -/
def mapStore (bench : Bench) (change : Store → Store) : Bench :=
  { bench with host := { bench.host with store := change bench.host.store } }

/-- Make a file. -/
def plant (bench : Bench) (path : Bytes) (planting : Planting) : Bench :=
  bench.mapStore fun store => store.plant bench.root path planting

/-- Remove a file. -/
def remove (bench : Bench) (path : Path) : Bench :=
  bench.mapStore fun store => store.remove bench.root path

/-- List the files below a directory. -/
def listing (bench : Bench) (path : Path) : List Row :=
  bench.host.store.listing bench.root path

end Bench

end LineShell
