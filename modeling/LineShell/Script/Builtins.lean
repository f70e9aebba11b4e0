/-
# LineShell.Script.Builtins -- the commands that a script carries out itself

A builtin gets its arguments and gives a status.  Those that run further commands
are left to the interpreter.
-/
import LineShell.Script.Condition
import LineShell.Script.Format
import LineShell.Script.Redirecting

namespace LineShell.Script

set_option autoImplicit false

namespace Builtins

/-- The names of the signals that come after the others, from 34 upwards. -/
def laterSignalNames : List String :=
  "RTMIN" :: (List.range 15).map (fun n => "RTMIN+" ++ toString (n + 1)) ++
    (List.range 14).map (fun n => "RTMAX-" ++ toString (14 - n)) ++ ["RTMAX"]

/-- The names of the signals from 1 upwards. -/
def signalNames : List String :=
  ["HUP", "INT", "QUIT", "ILL", "TRAP", "ABRT", "BUS", "FPE", "KILL", "USR1", "SEGV", "USR2", "PIPE",
   "ALRM", "TERM", "STKFLT", "CHLD", "CONT", "STOP", "TSTP", "TTIN", "TTOU", "URG", "XCPU", "XFSZ",
   "VTALRM", "PROF", "WINCH", "IO", "PWR", "SYS", "32", "33"] ++ laterSignalNames

/-- Signals are below this number. -/
def signalLimit : Nat := 65

/-- The signal that a text means. -/
def signal? (text : Text) : Option Nat :=
  if Text.isNumber text then
    let number := Text.decimal text
    if number < signalLimit then some number else none
  else
    (signalNames.findIdx? fun name => Text.ofString name = text.map Char.toUpper).map (· + 1)

/-- Numbers in arguments are at most this. -/
def greatestNumber : Int := 2147483647

/-- The number that an argument is. -/
def number (command argument : Text) : Run Nat := do
  match (Text.wholeDecimal? argument).filter fun value => 0 ≤ value && value ≤ greatestNumber with
  | some value => return value.toNat
  | none => Run.fail (some command) (Text.ofString "Illegal number: " ++ argument)

/-- Send a signal to one process; a number with a minus is a group, and there are no groups to reach. -/
def sendOne (command : Text) (signal : Nat) (target : Text) : Run (Except Errno Unit) := do
  match target with
  | '-' :: group =>
      let _ ← number command group
      return .error .ESRCH
  | _ => Run.ask (.signal (← number command target) signal)

/-- Send a signal to processes; the status is 1 when one cannot be reached. -/
def sendAll (command : Text) (signal : Nat) : List Text → Nat → Run Nat
  | [], status => return status
  | target :: rest, status => do
      match ← sendOne command signal target with
      | .ok () => sendAll command signal rest status
      | .error errno =>
          Run.report (some command) (Text.ofString errno.systemText ++ ['\n'])
          sendAll command signal rest 1

def usage : String :=
  "Usage: kill [-s sigspec | -signum | -sigspec] [pid | job]... or\nkill -l [exitstatus]"

def kill (command : Text) (arguments : List Text) : Run Nat := do
  let send (signal : Nat) (targets : List Text) : Run Nat :=
    if targets.isEmpty then Run.fail (some command) (Text.ofString usage)
    else sendAll command signal targets 0
  match arguments with
  | ['-', 's'] :: name :: rest =>
      match signal? name with
      | some signal => send signal rest
      | none =>
          Run.fail (some command) (Text.ofString "invalid signal number or name: " ++ name)
  | ['-', '-'] :: rest => send 15 rest
  | ('-' :: option :: more) :: rest =>
      match signal? (option :: more) with
      | some signal => send signal rest
      | none => Run.fail (some command) (Text.ofString "Illegal option -" ++ [option])
  | _ => send 15 arguments

/-! ## Reading a line -/

/-- The characters of a line read so far, the last first, and whether each was protected. -/
abbrev ReadSoFar := List (Char × Bool)

/-- Read one byte at a time up to a newline, at most `limit` bytes; whether the newline was found.  A
backslash protects the next character unless the line is raw. -/
def readLine (raw protecting : Bool) : Nat → ReadSoFar → Run (ReadSoFar × Bool)
  | 0, line => return (line, false)
  | limit + 1, line => do
      match ← Run.ask (.read 0 1) with
      | .ok [byte] =>
          let c := Char.ofNat byte.toNat
          if byte = 0 then readLine raw protecting limit line
          else if protecting then
            if c = '\n' then readLine raw false limit line
            else readLine raw false limit ((c, true) :: line)
          else if c = '\n' then return (line, true)
          else if c = '\\' && !raw then readLine raw true limit line
          else readLine raw false limit ((c, false) :: line)
      | _ => return (line, false)

/-- Whether a character of a line is white space that separates fields. -/
def isGap (separators : Text) (entry : Char × Bool) : Bool :=
  !entry.2 && separators.contains entry.1 && (entry.1 = ' ' || entry.1 = '\t' || entry.1 = '\n')

def isSeparator (separators : Text) (entry : Char × Bool) : Bool :=
  !entry.2 && separators.contains entry.1

def withoutGapsAtEnd (separators : Text) (line : List (Char × Bool)) : List (Char × Bool) :=
  (line.reverse.dropWhile (isGap separators)).reverse

/-- Give the fields of a line to variables; the last one gets all that is left. -/
def distribute (separators : Text) : List Text → List (Char × Bool) → Run Unit
  | [], _ => return ()
  | [name], line => do
      let rest := withoutGapsAtEnd separators (line.dropWhile (isGap separators))
      -- One separator at the end belongs to the field when nothing else is left.
      let field := rest.takeWhile fun entry => !isSeparator separators entry
      let after := rest.drop field.length
      let alone := match after with
        | [entry] => isSeparator separators entry
        | _ => false
      Run.assign name ((if alone then field else rest).map Prod.fst)
  | name :: more, line => do
      let rest := line.dropWhile (isGap separators)
      let field := rest.takeWhile fun entry => !isSeparator separators entry
      Run.assign name (field.map Prod.fst)
      let after := (rest.drop field.length).dropWhile (isGap separators)
      let after := match after with
        | entry :: left => if isSeparator separators entry then left else after
        | [] => []
      distribute separators more after

def read (command : Text) (arguments : List Text) : Run Nat := do
  let raw := arguments.head? = some ['-', 'r']
  let names := if raw then arguments.drop 1 else arguments
  if names.isEmpty then Run.fail (some command) (Text.ofString "arg count")
  else
    let (line, complete) ← readLine raw false patience []
    distribute (← Expansion.separators) names line.reverse
    return if complete then 0 else 1

/-! ## Conditions -/

/-- Whether a file answers a question. -/
def answer (question : FileQuestion) (path : Text) : Run Bool := do
  match ← Run.ask (.status ⟨Text.toBytes path⟩ (question ≠ .link)) with
  | .error _ => return false
  | .ok status =>
      return match question, status.content with
        | .present, _ => true
        | .readable, _ => true
        | .writable, _ => true
        | .executable, .directory _ _ => true
        | .executable, _ => status.mode &&& 0o111 != 0
        | .regular, .file _ => true
        | .regular, .tool _ => true
        | .regular, .process _ => true
        | .directory, .directory _ _ => true
        | .link, .link _ => true
        | .fifo, .channel _ => true
        | .characterDevice, .sink => true
        | .nonEmpty, .file bytes => bytes.size ≠ 0
        | .nonEmpty, .tool _ => true
        | .nonEmpty, .directory _ _ => true
        | _, _ => false

def holds : Condition → Run Bool
  | .constant value => return value
  | .file question path => answer question path
  | .sameFile left right => do
      match ← Run.ask (.status ⟨Text.toBytes left⟩ true),
          ← Run.ask (.status ⟨Text.toBytes right⟩ true) with
      | .ok first, .ok second => return first.node = second.node
      | _, _ => return false
  | .not condition => return !(← holds condition)
  | .both left right => do
      if ← holds left then holds right else return false
  | .either left right => do
      if ← holds left then return true else holds right

def test (command : Text) (arguments : List Text) : Run Nat := do
  match Condition.ofArguments arguments with
  | .error message => Run.fail (some command) (Text.ofString message)
  | .ok condition => return if ← holds condition then 0 else 1

/-- The condition in brackets. -/
def bracket (command : Text) (arguments : List Text) : Run Nat := do
  if arguments.getLast? = some [']'] then test command arguments.dropLast
  else Run.fail (some command) (Text.ofString "missing ]")

/-! ## Output -/

def reportAll (command : Text) : List String → Run Unit
  | [] => return ()
  | first :: rest => do
      Run.report (some command) (Text.ofString first)
      reportAll command rest

def printf (command : Text) (arguments : List Text) : Run Nat := do
  match arguments with
  | [] => Run.fail (some command) (Text.ofString "usage: printf format [arg ...]")
  | format :: rest =>
      match Format.run format rest with
      | .error message => Run.fail (some command) (Text.ofString message)
      | .ok (text, complaints) =>
          reportAll command complaints
          Run.output command text (if complaints.isEmpty then 0 else 1)

def echo (command : Text) (arguments : List Text) : Run Nat :=
  Run.output command (Format.echo arguments) 0

/-! ## Directories -/

/-- The name of the variable for the directory. -/
def directoryName : Text := Text.ofString "PWD"

/-- Where the script is, without links. -/
def physicalDirectory : Run Text := do
  match ← Run.ask .workingDirectory with
  | .ok path => return Text.ofBytes path.bytes
  | .error errno =>
      Run.report none (Text.ofString ("getcwd() failed: " ++ errno.systemText))
      return []

def pwd (command : Text) (arguments : List Text) : Run Nat := do
  if arguments.head? = some ['-', 'P'] then
    Run.output command ((← physicalDirectory) ++ ['\n']) 0
  else Run.output command (((← Run.lookup? directoryName).getD []) ++ ['\n']) 0

def cd (command : Text) (arguments : List Text) : Run Nat := do
  let arguments := arguments.filter fun argument => argument ≠ ['-', 'P'] && argument ≠ ['-', 'L']
  let target ←
    match arguments with
    | [] => pure ((← Run.lookup? (Text.ofString "HOME")).getD [])
    | first :: _ => pure first
  if target.isEmpty then return 0
  else
    match ← Run.ask (.enterDirectory ⟨Text.toBytes target⟩) with
    | .error _ => Run.fail (some command) (Text.ofString "can't cd to " ++ target)
    | .ok () =>
        Run.assign directoryName (← physicalDirectory)
        return 0

/-! ## Variables and positions -/

def shift (command : Text) (arguments : List Text) : Run Nat := do
  let count ←
    match arguments with
    | [] => pure 1
    | first :: _ => number command first
  let state ← get
  if state.positions.length < count then Run.fail (some command) (Text.ofString "can't shift that many")
  else
    set { state with positions := state.positions.drop count }
    return 0

/-- Options are taken and have no effect; what follows becomes the positions. -/
def setPositions (arguments : List Text) : Run Nat := do
  match arguments with
  | [] => return 0
  | ['-', '-'] :: rest =>
      modify fun state => { state with positions := rest }
      return 0
  | ('-' :: _) :: [] => return 0
  | ('-' :: _) :: rest =>
      modify fun state => { state with positions := rest }
      return 0
  | _ =>
      modify fun state => { state with positions := arguments }
      return 0

def unset (arguments : List Text) : Run Nat := do
  let names := arguments.filter Text.isName
  modify fun state => { state with bindings := names.foldl Bindings.unset state.bindings }
  return 0

/-- Set the variables that arguments name, with or without a value, and mark them for export. -/
def exportAll (command : Text) : List Text → Run Nat
  | [] => return 0
  | first :: rest => do
      let name := first.takeWhile (· ≠ '=')
      if !Text.isName name then Run.fail (some command) (name ++ Text.ofString ": bad variable name")
      else
        match first.drop name.length with
        | '=' :: value => Run.assign name value
        | _ => pure ()
        modify fun state => { state with bindings := state.bindings.markExported name }
        exportAll command rest

/-! ## Leaving -/

/-- The status that an argument gives, or the last one. -/
def statusOf (command : Text) (arguments : List Text) : Run Nat := do
  match arguments with
  | [] => return (← get).status
  | first :: _ => number command first

/-- Leave as many loops as an argument says, or one, with a stop that tells how many; outside of all loops
nothing happens. -/
def leaveLoops (stop : Nat → Stop) (command : Text) (arguments : List Text) : Run Nat := do
  let wanted ←
    match arguments with
    | [] => pure 1
    | first :: _ => number command first
  if wanted = 0 then
    Run.fail (some command) (Text.ofString "Illegal number: " ++ arguments.headD [])
  else
    match (← get).loops with
    | 0 => return 0
    | loops + 1 =>
        Run.setStatus 0
        throw (stop (min wanted (loops + 1)))

/-- The builtins after whose mistakes a script cannot go on. -/
def special? (name : String) : Option (Text → List Text → Run Nat) :=
  match name with
  | ":" => some fun _ _ => return 0
  | "exit" => some fun command arguments => do throw (.exit (← statusOf command arguments))
  | "return" => some fun command arguments => do throw (.leaveFunction (← statusOf command arguments))
  | "break" => some (leaveLoops .leaveLoop)
  | "continue" => some (leaveLoops .nextRound)
  | "shift" => some shift
  | "set" => some fun _ arguments => setPositions arguments
  | "unset" => some fun _ arguments => unset arguments
  | "export" => some exportAll
  | "readonly" => some fun _ _ => return 0
  | "trap" => some fun _ _ => return 0
  | "times" => some fun _ _ => return 0
  | _ => none

/-- The other builtins. -/
def regular? (name : String) : Option (Text → List Text → Run Nat) :=
  match name with
  | "true" => some fun _ _ => return 0
  | "false" => some fun _ _ => return 1
  | "printf" => some printf
  | "echo" => some echo
  | "read" => some read
  | "kill" => some kill
  | "test" => some test
  | "[" => some bracket
  | "pwd" => some pwd
  | "cd" => some cd
  | "umask" => some fun _ _ => return 0
  | "ulimit" => some fun _ _ => return 0
  | _ => none

end Builtins

end LineShell.Script
