/-
# LineShell.Dispatch -- the loop that reads lines and runs them

Each turn writes the prompt, reads one line and runs it.  The loop ends with the
line that says so, at the end of the input, where an `exit` is run in place of the
missing line, or at a line that is not text, which is not run.  Its status is 0 in
every case.

Running a line is one call of the loop, so that the order of the turns can be read
off the calls alone.
-/
import LineShell.Session

namespace LineShell

set_option autoImplicit false

namespace Dispatch

/-- What the loop asks. -/
inductive Call where
  | prompt
  | readLine
  | runLine (session : Session) (line : String)
  deriving DecidableEq

/-- The state after a line, and whether there is a next turn. -/
structure Turn where
  session : Session
  flow : Flow
  deriving DecidableEq

/-- What the loop is answered.  A line keeps its newline; an empty one is the end of the input. -/
abbrev Call.Answer : Call → Type
  | .prompt => Unit
  | .readLine => Bytes
  | .runLine _ _ => Turn

/-- Why the loop ended. -/
inductive Ending where
  | exit
  | endOfInput
  | notText
  deriving DecidableEq, Repr

/-- The end of the loop, and the status that the shell leaves with. -/
structure Finish where
  ending : Ending
  status : Nat
  deriving DecidableEq, Repr

end Dispatch

/-- A part of the loop. -/
abbrev Dispatch := Program Dispatch.Call Dispatch.Call.Answer

namespace Dispatch

def system (call : Call) : Dispatch call.Answer :=
  Program.request call

/-- What is run at the end of the input. -/
def lastLine : String := "exit"

/-- Take turns, at most `limit` of them; nothing when the loop has not ended by then. -/
def loop : Nat → Session → Dispatch (Option Finish)
  | 0, _ => return none
  | limit + 1, session => do
      system .prompt
      let line ← system .readLine
      if line.isEmpty then
        let _ ← system (.runLine session lastLine)
        return some ⟨.endOfInput, 0⟩
      else
        match line.text? with
        | none => return some ⟨.notText, 0⟩
        | some text =>
            let turn ← system (.runLine session text)
            match turn.flow with
            | .exit => return some ⟨.exit, 0⟩
            | .proceed => loop limit turn.session

end Dispatch

/-- The shell could not find out which directory it is in. -/
structure StartError where
  errno : Errno
  deriving DecidableEq, Repr

namespace StartError

def message (error : StartError) : String :=
  "minish: " ++ error.errno.numbered

def status : Nat := 1

end StartError

end LineShell
