/-
# LineShell.Script.Run -- the steps of a running script

A step may ask the system, change the state of the script, and end more than
itself: the script, a loop or a function.  A mistake is reported as soon as it is
found, with the name of the script, the line, and the command if there is one.
-/
import LineShell.Host.Action

namespace LineShell.Script

set_option autoImplicit false

/-- Why the next step is not taken. -/
inductive Stop where
  | exit (status : Nat)
  /-- A mistake, which has been reported. -/
  | mistake
  | leaveLoop (levels : Nat)
  | nextRound (levels : Nat)
  | leaveFunction (status : Nat)
  deriving DecidableEq, Repr

/-- A step of a running script. -/
abbrev Run := ExceptT Stop (StateT State Action)

/-- The bound for the loops of a script and for all that is read. -/
def patience : Nat := 1000000000

/-- The status after a mistake. -/
def mistakeStatus : Nat := 2

namespace Run

/-- Take an action of the system. -/
def act {α : Type} (action : Action α) : Run α :=
  ExceptT.lift (StateT.lift action)

/-- Ask the system once. -/
def ask (call : Action.Call) : Run call.Answer :=
  act (Action.system call)

def setStatus (status : Nat) : Run Unit :=
  modify fun state => { state with status := status }

/-- Report something under the name of the script, about a command or else about the one that reads
commands from a text. -/
def report (command : Option Text) (message : Text) : Run Unit := do
  let state ← get
  let separator := Text.ofString ": "
  let place := state.name ++ separator ++ Text.ofNat state.line ++ separator
  let subject := (command <|> state.command).elim [] (· ++ separator)
  let _ ← act (Action.writeAll 2 (Text.toBytes (place ++ subject ++ message ++ ['\n'])))

/-- Report a mistake and stop. -/
def fail {α : Type} (command : Option Text) (message : Text) : Run α := do
  report command message
  throw .mistake

/-- Write the output of a command; the status is 1 at least when that fails. -/
def output (command : Text) (text : Text) (status : Nat) : Run Nat := do
  match ← act (Action.writeAll 1 (Text.toBytes text)) with
  | .ok () => return status
  | .error _ =>
      report (some command) (command ++ Text.ofString ": I/O error")
      return status ||| 1

/-- Take steps and then others, whatever the first ones end with. -/
def afterwards {α : Type} (steps : Run α) (others : Run Unit) : Run α := do
  match ← ExceptT.lift steps.run with
  | .ok value =>
      others
      return value
  | .error stop =>
      others
      throw stop

/-- Take steps whose messages are about a command. -/
def under {α : Type} (command : Text) (steps : Run α) : Run α := do
  let earlier := (← get).command
  modify fun state => { state with command := some command }
  afterwards steps (modify fun state => { state with command := earlier })

/-- The value of a variable. -/
def lookup? (name : Text) : Run (Option Text) := do
  return (← get).bindings.value? name

def assign (name value : Text) : Run Unit :=
  modify fun state => { state with bindings := state.bindings.assign name value }

/-- Read a descriptor to its end, at most `limit` blocks, the first block last. -/
def readBlocks (descriptor : Descriptor) : Nat → List Bytes → Run (Except Errno Bytes)
  | 0, blocks => return .ok blocks.reverse.flatten
  | limit + 1, blocks => do
      match ← ask (.read descriptor 65536) with
      | .error errno => return .error errno
      | .ok block =>
          if block.isEmpty then return .ok blocks.reverse.flatten
          else readBlocks descriptor limit (block :: blocks)

/-- Read a descriptor to its end. -/
def readAll (descriptor : Descriptor) : Run (Except Errno Bytes) :=
  readBlocks descriptor patience []

/-- The status of a child that was waited for. -/
def await (pid : Pid) : Run Nat := do
  match ← ask (.await pid) with
  | .error _ => return 127
  | .ok status => return (status.code.getD 0).toNat

end Run

/-- What is said about a file that cannot be opened, made or executed. -/
inductive FileTrouble where
  | opening
  | making
  | executing
  deriving DecidableEq, Repr

namespace FileTrouble

/-- A missing file is described by what was tried. -/
def message (trouble : FileTrouble) (errno : Errno) : Text :=
  Text.ofString <|
    if errno = .ENOENT || errno = .ENOTDIR then
      match trouble with
      | .opening => "No such file"
      | .making => "Directory nonexistent"
      | .executing => "not found"
    else errno.systemText

end FileTrouble

end LineShell.Script
