/-
# LineShell.Script.Interpreter -- running scripts

A command changes the state of the script and leaves a status.  Programs and
subshells run in children, to which the state is handed over.  Loops and recursion
of a script are bounded only by `patience`.
-/
import LineShell.Script.Builtins
import LineShell.Script.Reader

namespace LineShell.Script

set_option autoImplicit false

namespace Interpreter

/-- The paths at which a command may be found, in order. -/
def candidates (name : Text) : Run (List Text) := do
  if name.contains '/' then return [name]
  else
    let searchPath := (← Run.lookup? (Text.ofString "PATH")).getD []
    let entries := (searchPath.splitOn ':').map fun entry =>
      if entry.isEmpty then name else entry ++ '/' :: name
    return entries

/-- The file of the interpreter itself. -/
def interpreterFile : Text := Text.ofString "/bin/sh"

/-- Execute a file; a file of unknown format is taken for a script. -/
def executeFile (file : Text) (arguments : List Text) : Run Errno := do
  let environment := (← get).bindings.entries.map NulFree.clip
  let prepared (texts : List Text) : List NulFree := texts.map fun text => .clip (Text.toBytes text)
  let errno ← Run.ask (.entry (.execute (.clip (Text.toBytes file)) (prepared arguments) environment))
  if errno = .ENOEXEC then
    Run.ask (.entry (.execute (.clip (Text.toBytes interpreterFile))
      (prepared (interpreterFile :: file :: arguments.drop 1)) environment))
  else return errno

/-- Execute the first file that can be executed; the error that counts when there is none. -/
def executeFirst (arguments : List Text) : List Text → Errno → Run Errno
  | [], errno => return errno
  | file :: rest, errno => do
      let found ← executeFile file arguments
      executeFirst arguments rest (if found = .ENOENT || found = .ENOTDIR then errno else found)

/-- Become a program, or stop. -/
def become (arguments : List Text) : Run Unit := do
  let name := arguments.headD []
  let errno ← executeFirst arguments (← candidates name) .ENOENT
  Run.report none (name ++ Text.ofString ": " ++ FileTrouble.message .executing errno)
  let missing := errno = .ENOENT || errno = .ENOTDIR || errno = .ELOOP || errno = .ENAMETOOLONG
  throw (.exit (if missing then 127 else 126))

/-- Whether one of the files can be executed. -/
def anyExecutable : List Text → Run Bool
  | [] => return false
  | file :: rest => do
      let executable ← Builtins.answer .executable file
      let directory ← Builtins.answer .directory file
      if executable && !directory then return true else anyExecutable rest

/-- Have a child do a task; its pid. -/
def fork (task : Task) (wiring : List Entry.Wiring) : Run Pid := do
  match ← Run.ask (.fork ⟨← get, task, wiring⟩) with
  | .ok pid => return pid
  | .error _ => Run.fail none (Text.ofString "Cannot fork")

/-- Have a child do a task and take over its status. -/
def delegate (task : Task) : Run Unit := do
  let pid ← fork task []
  Run.setStatus (← Run.await pid)

/-- Set the variables of assignments. -/
def assignAll (exported : Bool) : List Assignment → Run Unit
  | [] => return ()
  | first :: rest => do
      Run.assign first.name (← Expansion.text first.value)
      if exported then
        modify fun state => { state with bindings := state.bindings.markExported first.name }
      assignAll exported rest

/-- Put the variables of assignments back to what they were in earlier bindings. -/
def restoreAll (earlier : Bindings) (assignments : List Assignment) : Run Unit :=
  modify fun state => { state with
    bindings := assignments.foldl (fun bindings assignment => bindings.restore earlier assignment.name)
      state.bindings }

/-- Run steps with variables that are set for them only. -/
def during (assignments : List Assignment) (steps : Run Unit) : Run Unit := do
  let earlier := (← get).bindings
  assignAll true assignments
  Run.afterwards steps (restoreAll earlier assignments)

/-- Run a command in a child. -/
def runProgram (words : List Text) : Run Unit := do
  let name := words.headD []
  let known ← if name.contains '/' then pure true else do anyExecutable (← candidates name)
  if known then delegate (.program words)
  else
    Run.report none (name ++ Text.ofString ": not found")
    Run.setStatus 127

/-- Run a builtin after whose mistakes the script goes on. -/
def runRegular (builtin : Text → List Text → Run Nat) (name : Text) (arguments : List Text) :
    Run Unit := do
  match ← ExceptT.lift (builtin name arguments).run with
  | .ok status => Run.setStatus status
  | .error .mistake => Run.setStatus mistakeStatus
  | .error stop => throw stop

/-- Whether a word asks for the output of commands. -/
def asksOutput (word : Word) : Bool :=
  word.any fun part =>
    match part with
    | .output _ _ => true
    | _ => false

/-- Take the steps of a loop. -/
def looping (steps : Run Unit) : Run Unit := do
  modify fun state => { state with loops := state.loops + 1 }
  Run.afterwards steps (modify fun state => { state with loops := state.loops - 1 })

/-- Wait for the children that are named, or for the last one in the background. -/
def wait : List Text → Run Unit
  | [] => do
      match (← get).backgroundPid with
      | none => Run.setStatus 0
      | some pid =>
          let _ ← Run.await pid
          Run.setStatus 0
  | first :: rest => do
      match Pid.ofNat? (Text.decimal first) with
      | none => Run.setStatus 127
      | some pid => Run.setStatus (← Run.await pid)
      if rest.isEmpty then return () else wait rest

mutual

/-- Run a command. -/
def execute : Nat → Command → Run Unit
  | 0, _ => throw .mistake
  | limit + 1, command =>
      match command with
      | .nothing => return ()
      | .simple line assignments words redirections => do
          modify fun state => { state with line := line }
          let words ← Expansion.allFields words
          simple limit assignments words redirections
      | .sequence first second => do
          execute limit first
          execute limit second
      | .andThen first second => do
          execute limit first
          if (← get).status = 0 then execute limit second
      | .orElse first second => do
          execute limit first
          if (← get).status ≠ 0 then execute limit second
      | .negated body => do
          execute limit body
          Run.setStatus (if (← get).status = 0 then 1 else 0)
      | .pipeline left right => do
          match ← Run.ask .pipe with
          | .error _ => Run.fail none (Text.ofString "Pipe call failed")
          | .ok (reading, writing) =>
              let first ← fork (.command left) [⟨reading, writing, 1⟩]
              let second ← fork (.command right) [⟨writing, reading, 0⟩]
              let _ ← Run.ask (.entry (.close reading))
              let _ ← Run.ask (.entry (.close writing))
              let _ ← Run.await first
              Run.setStatus (← Run.await second)
      | .background body => do
          let quiet : Redirection := ⟨0, .read, [.literal (Text.ofString "/dev/null") true]⟩
          let pid ← fork (.command (.redirected (← get).line body [quiet])) []
          modify fun state => { state with backgroundPid := some pid, status := 0 }
      | .subshell body => delegate (.command body)
      | .redirected line body redirections => do
          modify fun state => { state with line := line }
          match ← Redirecting.around redirections (execute limit body) with
          | some () => return ()
          | none => Run.setStatus mistakeStatus
      | .branch condition yes no => do
          execute limit condition
          if (← get).status = 0 then execute limit yes
          else
            match no with
            | .nothing => Run.setStatus 0
            | other => execute limit other
      | .repeated wanted condition body => looping (rounds limit wanted condition body 0)
      | .each line name words body => do
          modify fun state => { state with line := line }
          let values ←
            match words with
            | none => pure (← get).positions
            | some words => Expansion.allFields words
          Run.setStatus 0
          looping (eachValue limit name body values)
      | .choice line subject arms => do
          modify fun state => { state with line := line }
          let text ← Expansion.text subject
          Run.setStatus 0
          firstArm limit text arms
      | .define name body => do
          modify fun state => { state with
            functions := (name, body) :: state.functions.filter (fun known => known.1 ≠ name)
            status := 0 }

/-- Repeat a body; `last` is the status of the round before. -/
def rounds : Nat → Bool → Command → Command → Nat → Run Unit
  | 0, _, _, _, _ => throw .mistake
  | limit + 1, wanted, condition, body, last => do
      execute limit condition
      if ((← get).status = 0) = wanted then
        match ← ExceptT.lift (execute limit body).run with
        | .ok () => rounds limit wanted condition body (← get).status
        | .error (.leaveLoop levels) => if levels ≤ 1 then return () else throw (.leaveLoop (levels - 1))
        | .error (.nextRound levels) =>
            if levels ≤ 1 then rounds limit wanted condition body (← get).status
            else throw (.nextRound (levels - 1))
        | .error stop => throw stop
      else Run.setStatus last

/-- Run a body for each value. -/
def eachValue : Nat → Text → Command → List Text → Run Unit
  | 0, _, _, _ => throw .mistake
  | _ + 1, _, _, [] => return ()
  | limit + 1, name, body, value :: rest => do
      Run.assign name value
      match ← ExceptT.lift (execute limit body).run with
      | .ok () => eachValue limit name body rest
      | .error (.leaveLoop levels) => if levels ≤ 1 then return () else throw (.leaveLoop (levels - 1))
      | .error (.nextRound levels) =>
          if levels ≤ 1 then eachValue limit name body rest else throw (.nextRound (levels - 1))
      | .error stop => throw stop

/-- Run the first arm with a pattern that matches. -/
def firstArm : Nat → Text → List (List Word × Command) → Run Unit
  | 0, _, _ => throw .mistake
  | _ + 1, _, [] => return ()
  | limit + 1, text, (patterns, body) :: rest => do
      if ← anyMatches text patterns then execute limit body else firstArm limit text rest
where
  anyMatches (text : Text) : List Word → Run Bool
    | [] => return false
    | first :: rest => do
        if (← Expansion.pattern first).covers text then return true else anyMatches text rest

/-- Run a simple command whose words have been expanded. -/
def simple : Nat → List Assignment → List Text → List Redirection → Run Unit
  | 0, _, _, _ => throw .mistake
  | limit + 1, assignments, words, redirections =>
      let guarded (steps : Run Unit) : Run Unit := do
        match ← Redirecting.around redirections steps with
        | some () => return ()
        | none => Run.setStatus mistakeStatus
      match words with
      | [] => do
          guarded do
            assignAll false assignments
            if !assignments.any (fun assignment => asksOutput assignment.value) then Run.setStatus 0
      | name :: arguments => do
          let plain := String.ofList name
          if plain = "exec" then
            match ← ExceptT.lift (Redirecting.makeAll redirections).run with
            | .error stop => throw stop
            | .ok () =>
                assignAll true assignments
                if arguments.isEmpty then Run.setStatus 0 else Run.under name (become arguments)
          else
            match Builtins.special? plain with
            | some builtin => do
                match ← Redirecting.around redirections (do
                    assignAll false assignments
                    builtin name arguments) with
                | some status => Run.setStatus status
                | none => throw .mistake
            | none =>
                if plain = "eval" || plain = "." then
                  let ran ← Redirecting.around redirections do
                    assignAll false assignments
                    Run.setStatus 0
                    Run.under name
                      (if plain = "eval" then runText limit (Text.joinWith [' '] arguments) 1
                       else source limit (arguments.headD []))
                  if ran.isNone then throw .mistake
                else
                  match (← get).functions.lookup name with
                  | some body => guarded (during assignments (call limit arguments body))
                  | none =>
                      if plain = "wait" then guarded (wait arguments)
                      else
                        match Builtins.regular? plain with
                        | some builtin =>
                            guarded (during assignments (runRegular builtin name arguments))
                        | none => guarded (during assignments (runProgram words))

/-- Run the commands of a file. -/
def source : Nat → Text → Run Unit
  | 0, _ => throw .mistake
  | limit + 1, file => do
      match ← Run.ask (.openFile ⟨Text.toBytes file⟩ .read) with
      | .error errno =>
          Run.fail none (Text.ofString "cannot open " ++ file ++ Text.ofString ": " ++
            FileTrouble.message .opening errno)
      | .ok descriptor =>
          let bytes := (← Run.readAll descriptor).toOption.getD []
          let _ ← Run.ask (.entry (.close descriptor))
          runText limit (Text.ofBytes bytes) 1

/-- Call a function. -/
def call : Nat → List Text → Command → Run Unit
  | 0, _, _ => throw .mistake
  | limit + 1, arguments, body => do
      let earlier ← get
      modify fun state => { state with positions := arguments, loops := 0 }
      let restore : Run Unit := modify fun state =>
        { state with positions := earlier.positions, loops := earlier.loops }
      match ← ExceptT.lift (Run.afterwards (execute limit body) restore).run with
      | .ok () => return ()
      | .error (.leaveFunction status) => Run.setStatus status
      | .error stop => throw stop

/-- Read and run the commands of a text that starts in a line. -/
def runText : Nat → Text → Nat → Run Unit
  | 0, _, _ => throw .mistake
  | limit + 1, text, line => do
      match Reader.readCommand text line with
      | .error fault =>
          modify fun state => { state with line := fault.line }
          Run.fail none (Text.ofString fault.message)
      | .ok (none, _, _) => return ()
      | .ok (some command, rest, line) =>
          execute limit command
          runText limit rest line

end

/-! ## Whole programs -/

/-- Run steps to the end of a process; the exit code. -/
def finish (steps : Run Unit) (state : State) : Action Int := do
  match ← steps.run state with
  | (.ok (), later) => return later.status
  | (.error (.exit status), _) => return status
  | (.error (.leaveFunction status), _) => return status
  | (.error .mistake, _) => return mistakeStatus
  | (.error _, later) => return later.status

/-- Wire the ends of pipes and close what is kept aside. -/
def prepare (aside : List Descriptor) : List Entry.Wiring → Action Unit
  | [] => closeAll aside
  | first :: rest => do
      let _ ← Action.ofEntry (Entry.wire first)
      prepare aside rest
where
  closeAll : List Descriptor → Action Unit
    | [] => return ()
    | first :: rest => do
        let _ ← Action.system (.entry (.close first))
        closeAll rest

/-- The steps of a child of a script. -/
def child (work : Work) : Action Int := do
  prepare work.state.aside work.wiring
  let state := { work.state with aside := [] }
  match work.task with
  | .command command => finish (execute patience command) state
  | .script text => finish (runText patience text state.line) state
  | .program arguments => finish (become arguments) state

/-- The variables that a script has in any case, before those it inherits. -/
def defaults : Bindings :=
  [("PATH", "/usr/local/sbin:/usr/local/bin:/usr/sbin:/usr/bin:/sbin:/bin"), ("PS1", "# "),
   ("PS2", "> "), ("PS4", "+ ")].map fun (name, value) =>
    ⟨Text.ofString name, some (Text.ofString value), false⟩

/-- The variables at the start, all but the directory. -/
def startBindings (environment : List Bytes) : Bindings :=
  ((defaults.inherit environment).assign (Text.ofString "IFS") [' ', '\t', '\n']).assign
    (Text.ofString "OPTIND") ['1']

/-- The inherited directory, if it is absolute and is where the script runs. -/
def inheritedDirectory? : Run (Option Text) := do
  match ← Run.lookup? Builtins.directoryName with
  | some ('/' :: rest) =>
      match ← Run.ask (.status ⟨Text.toBytes ('/' :: rest)⟩ true),
          ← Run.ask (.status (Path.ofText ".") true) with
      | .ok named, .ok actual => return if named.node = actual.node then some ('/' :: rest) else none
      | _, _ => return none
  | _ => return none

/-- Set the variable for the directory. -/
def setDirectory : Run Unit := do
  let directory ←
    match ← inheritedDirectory? with
    | some directory => pure directory
    | none => Builtins.physicalDirectory
  Run.assign Builtins.directoryName directory
  modify fun state => { state with bindings := state.bindings.markExported Builtins.directoryName }

/-- Read all of the file with the script. -/
def loadFile (file : Text) : Run Text := do
  match ← Run.ask (.openFile ⟨Text.toBytes file⟩ .read) with
  | .error errno =>
      Run.fail none (Text.ofString "cannot open " ++ file ++ Text.ofString ": " ++
        FileTrouble.message .opening errno)
  | .ok descriptor =>
      let bytes := (← Run.readAll descriptor).toOption.getD []
      let _ ← Run.ask (.entry (.close descriptor))
      return Text.ofBytes bytes

/-- Where the script comes from. -/
inductive Source where
  | file (name : Text)
  | text (text : Text)
  | standardInput
  deriving DecidableEq

/-- What the arguments ask for: the source, the name of the script, and the positions. -/
structure Invocation where
  source : Source
  name : Text
  positions : List Text
  deriving DecidableEq

/-- Read the arguments that follow the interpreter's own name. -/
def invocation (own : Text) : List Text → Invocation
  | [] => ⟨.standardInput, own, []⟩
  | ['-', 'c'] :: text :: rest => ⟨.text text, rest.headD own, rest.drop 1⟩
  | ['-', 's'] :: rest => ⟨.standardInput, own, rest⟩
  | ['-', '-'] :: file :: rest => ⟨.file file, file, rest⟩
  | ['-'] :: file :: rest => ⟨.file file, file, rest⟩
  | ('-' :: _) :: rest => invocation own rest
  | file :: rest => ⟨.file file, file, rest⟩

/-- Load the script and run it. -/
def startScript (invocation : Invocation) : Run Unit := do
  setDirectory
  let text ←
    match invocation.source with
    | .text text => pure text
    | .file name => loadFile name
    | .standardInput => pure (Text.ofBytes ((← Run.readAll 0).toOption.getD []))
  modify fun state => { state with name := invocation.name }
  runText patience text 1

/-- The interpreter with its arguments, the first of which is its own name. -/
def program (arguments environment : List Bytes) : Action Int := do
  let texts := arguments.map Text.ofBytes
  let own := texts.headD (Text.ofString "sh")
  let found := invocation own texts.tail
  let pid ← Action.system .ownPid
  finish (startScript found) {
    name := own, positions := found.positions, bindings := startBindings environment, functions := []
    status := 0, line := 0, loops := 0, command := none, shellPid := pid, backgroundPid := none, aside := [] }

end Interpreter

end LineShell.Script
