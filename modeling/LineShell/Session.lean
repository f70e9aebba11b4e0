/-
# LineShell.Session -- one line after another

A session is where commands run together with the jobs in the background.  A line
is a builtin or is parsed and run; its result says whether the session goes on,
what was noticed about jobs and what went wrong.  Jobs are collected as the last
action of a line, except after `cd` and after a command that was sent to the
background.
-/
import LineShell.Builtin
import LineShell.Launch
import LineShell.Line
import LineShell.Marker

namespace LineShell

set_option autoImplicit false

/-- Why the directory was not changed. -/
inductive DirectoryError where
  | notFound (target : Path)
  | notADirectory (target : Path)
  | noHome
  deriving DecidableEq

namespace DirectoryError

def message : DirectoryError → String
  | .notFound target => "cd: no such file or directory: " ++ target.shown
  | .notADirectory target => "cd: not a directory: " ++ target.shown
  | .noHome => "cd: HOME not set"

end DirectoryError

/-- What a line tells about jobs. -/
inductive Notice where
  | started (pid : Pid)
  | terminated (code : Int)
  deriving DecidableEq, Repr

namespace Notice

def message : Notice → String
  | .started pid => "Background task " ++ toString pid ++ " started"
  | .terminated code => "Background task terminated with exit code " ++ toString code

end Notice

/-- What a line tells when something went wrong. -/
inductive Complaint where
  | directory (error : DirectoryError)
  | parse (error : ParseError)
  | launch (error : LaunchError)
  | exitCode (code : Int)
  deriving DecidableEq

namespace Complaint

def message : Complaint → String
  | .directory error => error.message
  | .parse error => "minish: " ++ error.message
  | .launch error => error.message
  | .exitCode code => "Program terminated with exit code " ++ toString code

end Complaint

/-- Whether the session goes on after a line. -/
inductive Flow where
  | proceed
  | exit
  deriving DecidableEq, Repr

/-- Where commands run, and the jobs that have not been collected. -/
structure Session extends Surroundings where
  jobs : Registry
  deriving DecidableEq

namespace Session

/-- A session without jobs. -/
def start (surroundings : Surroundings) : Session :=
  ⟨surroundings, []⟩

/-- The variable that names the user's own directory. -/
def homeName : Bytes := Bytes.ofText "HOME"

/-- The variable that names the directory of the session. -/
def directoryName : Bytes := Bytes.ofText "PWD"

/-- The result of a line: the session after it, whether it goes on, and what is written. -/
structure Outcome where
  session : Session
  flow : Flow
  notices : List Notice
  complaint : Option Complaint
  deriving DecidableEq

namespace Outcome

/-- What goes to the standard output. -/
def output (outcome : Outcome) : String :=
  String.join (outcome.notices.map fun notice => notice.message ++ "\n")

/-- What goes to the standard error. -/
def errors (outcome : Outcome) : String :=
  match outcome.complaint with
  | none => ""
  | some complaint => complaint.message ++ "\n"

end Outcome

/-! ## Changing the directory -/

/-- Where `cd` is meant to go: the given directory, or the user's own. -/
def directoryTarget? (session : Session) : Option String → Option Path
  | some target => some (.ofText target)
  | none => (session.environment.value? homeName).map Path.mk

/-- The session in another directory. -/
def moveTo (session : Session) (directory : Path) : Session :=
  { session with
    directory := directory
    environment := session.environment.assign directoryName directory.bytes }

/-- Change the directory. -/
def changeDirectory (session : Session) (target : Option String) :
    Shell (Except DirectoryError Unit × Session) := do
  match session.directoryTarget? target with
  | none => return (.error .noHome, session)
  | some target =>
      match ← Shell.system (.canonicalize (session.directory.join target)) with
      | .error _ => return (.error (.notFound target), session)
      | .ok resolved =>
          if ← Shell.system (.isDirectory resolved) then return (.ok (), session.moveTo resolved)
          else return (.error (.notADirectory target), session)

/-! ## Running lines -/

/-- The notices about collected jobs: those that left with a code above zero are reported. -/
def collectionNotices (collected : List Collected) : List Notice :=
  (collected.filter fun child => decide (0 < child.code)).map fun child => .terminated child.code

/-- Collect the jobs that are gone. -/
def reap (session : Session) : Shell (List Notice × Session) := do
  let (collected, left) ← session.jobs.drain
  return (collectionNotices collected, { session with jobs := left })

/-- End a line by collecting jobs. -/
def reapAndReturn (session : Session) (flow : Flow) (complaint : Option Complaint) :
    Shell Outcome := do
  let (notices, session) ← session.reap
  return ⟨session, flow, notices, complaint⟩

/-- Register a job. -/
def register (session : Session) (job : Job) : Session :=
  { session with jobs := session.jobs ++ [job] }

/-- Run a command; a job that is started is registered. -/
def execute (session : Session) (command : Command) (background : Bool) :
    Shell (Except LaunchError Launched × Session) := do
  match ← Launch.command session.toSurroundings command background with
  | .ok (.started job) => return (.ok (.started job), session.register job)
  | other => return (other, session)

/-- The complaint about an exit code. -/
def codeComplaint (code : Int) : Option Complaint :=
  if code = 0 then none else some (.exitCode code)

/-- The complaint about a line that could not be parsed; a blank line is fine. -/
def parseComplaint : ParseError → Option Complaint
  | .empty => none
  | error => some (.parse error)

/-- Run a command in the background. -/
def runDetached (session : Session) (command : Command) : Shell Outcome := do
  match ← session.execute command true with
  | (.ok (.started job), session) => return ⟨session, .proceed, [.started job.pid], none⟩
  | (.ok (.finished code), session) => return ⟨session, .proceed, [], codeComplaint code⟩
  | (.error error, session) => return ⟨session, .proceed, [], some (.launch error)⟩

/-- Run a command in the foreground. -/
def runAttached (session : Session) (command : Command) : Shell Outcome := do
  match ← session.execute command false with
  | (.ok (.started job), session) => return ⟨session, .proceed, [.started job.pid], none⟩
  | (.ok (.finished code), session) => session.reapAndReturn .proceed (codeComplaint code)
  | (.error error, session) => session.reapAndReturn .proceed (some (.launch error))

/-- Run a pipe. -/
def runPipe (session : Session) (left right : Command) : Shell Outcome := do
  match ← Launch.pipe session.toSurroundings left right with
  | .ok code => session.reapAndReturn .proceed (codeComplaint code)
  | .error error => session.reapAndReturn .proceed (some (.launch error))

/-- Run a line that is no builtin. -/
def runCommandLine (session : Session) (line : String) : Shell Outcome :=
  let marked := Marked.ofLine line
  match Line.parse marked.rest with
  | .error error => session.reapAndReturn .proceed (parseComplaint error)
  | .ok (.simple command) =>
      if marked.background then session.runDetached command else session.runAttached command
  | .ok (.pipe left right) => session.runPipe left right

/-- The directory that `cd` is given; an empty argument is none. -/
def directoryArgument (argument : String) : Option String :=
  if argument.isEmpty then none else some argument

/-- Carry out a builtin. -/
def runBuiltin (session : Session) : Builtin → Shell Outcome
  | .exit => session.reapAndReturn .exit none
  | .changeDirectory argument => do
      match ← session.changeDirectory (directoryArgument argument) with
      | (.ok (), session) => return ⟨session, .proceed, [], none⟩
      | (.error error, session) => return ⟨session, .proceed, [], some (.directory error)⟩

/-- Whether a character belongs to the end of a line. -/
def isLineEnd (c : Char) : Bool :=
  c = '\n' || c = '\r'

/-- Run one line; the characters that end it may still be there. -/
def runLine (session : Session) (line : String) : Shell Outcome :=
  let text := String.ofList (dropTrailing isLineEnd line.toList)
  match Builtin.ofLine? text with
  | some builtin => session.runBuiltin builtin
  | none => session.runCommandLine text

end Session

end LineShell
