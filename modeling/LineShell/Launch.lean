/-
# LineShell.Launch -- starting commands and pipes

Everything that can be refused is refused before a child is started.  A command
that is not found is never started; in a pipe both stages are started in any
case, and a stage that was not found says so itself.  A pipe always runs in the
foreground: the left stage is waited for, then the right one, whose exit code
counts.
-/
import LineShell.Jobs

namespace LineShell

set_option autoImplicit false

/-- Why nothing, or not everything, was started. -/
inductive LaunchError where
  | notFound (error : NotFound)
  | nul (error : NulError)
  | system (errno : Errno)
  deriving DecidableEq, Repr

namespace LaunchError

def message : LaunchError → String
  | .notFound error => error.message
  | .nul error => "argument contains a NUL byte: " ++ error.message
  | .system errno => "cannot start process: " ++ errno.labelled

end LaunchError

/-- What became of a started command. -/
inductive Launched where
  | finished (code : Int)
  | started (job : Job)
  deriving DecidableEq, Repr

namespace Launch

/-- Start a child, in the background or not. -/
def spawn (child : Child) (background : Bool) : Shell (Except Errno Job) := do
  match ← Shell.system (.fork child) with
  | .error errno => return .error errno
  | .ok pid => return .ok ⟨pid, background⟩

/-- The image of a command that was found. -/
def image (surroundings : Surroundings) (command : Command) (program : Path) :
    Except NulError Image := do
  Image.prepare command (some program) (← Context.prepare surroundings)

/-- Run a command. -/
def command (surroundings : Surroundings) (command : Command) (background : Bool) :
    Shell (Except LaunchError Launched) := do
  match ← Shell.locate command.name surroundings with
  | .error error => return .error (.notFound error)
  | .ok program =>
      match image surroundings command program with
      | .error error => return .error (.nul error)
      | .ok image =>
          match ← spawn ⟨image, none⟩ background with
          | .error errno => return .error (.system errno)
          | .ok job =>
              if background then return .ok (.started job)
              else
                match ← Job.await job.pid with
                | .error errno => return .error (.system errno)
                | .ok code => return .ok (.finished code)

/-- Start both stages, drop both ends, and wait for the left stage and then the right one. -/
def stages (left right : Image) (ends : Request.Ends) : Shell (Except LaunchError Int) := do
  match ← spawn ⟨left, some ⟨ends.read, ends.write, 1⟩⟩ false with
  | .error errno =>
      Shell.system (.close ends.write)
      Shell.system (.close ends.read)
      return .error (.system errno)
  | .ok first =>
      let second ← spawn ⟨right, some ⟨ends.write, ends.read, 0⟩⟩ false
      Shell.system (.close ends.read)
      Shell.system (.close ends.write)
      let _ ← Job.await first.pid
      match second with
      | .error errno => return .error (.system errno)
      | .ok job =>
          match ← Job.await job.pid with
          | .error errno => return .error (.system errno)
          | .ok code => return .ok code

/-- The images of both stages. -/
def images (context : Context) (left right : Command) (leftProgram rightProgram : Option Path) :
    Except NulError (Image × Image) := do
  let first ← Image.prepare left leftProgram context
  let second ← Image.prepare right rightProgram context
  return (first, second)

/-- Run a pipe; the exit code is the right stage's. -/
def pipe (surroundings : Surroundings) (left right : Command) : Shell (Except LaunchError Int) := do
  match Context.prepare surroundings with
  | .error error => return .error (.nul error)
  | .ok context =>
      let leftProgram ← Shell.locate left.name surroundings
      let rightProgram ← Shell.locate right.name surroundings
      match images context left right leftProgram.toOption rightProgram.toOption with
      | .error error => return .error (.nul error)
      | .ok (first, second) =>
          match ← Shell.system .pipe with
          | .error errno => return .error (.system errno)
          | .ok ends => stages first second ends

end Launch

end LineShell
