/-
# LineShell.Script.Work -- the state of a script, and what is handed to a child

A script that starts a child hands over its state and what the child is to do.
That is plain data: which steps it leads to is decided by the interpreter.
-/
import LineShell.Entry
import LineShell.Script.Bindings
import LineShell.Script.Tree
import LineShell.WaitStatus

namespace LineShell.Script

set_option autoImplicit false

/-- The state of a script. -/
structure State where
  /-- The name that messages start with. -/
  name : Text
  positions : List Text
  bindings : Bindings
  functions : List (Text × Command)
  status : Nat
  line : Nat
  /-- How many loops of the current function, or else of the script, are running. -/
  loops : Nat
  /-- The command that messages without one are about. -/
  command : Option Text
  shellPid : Pid
  backgroundPid : Option Pid
  /-- Descriptors that keep files which are put back later. -/
  aside : List Descriptor

/-- What a child of a script is to do. -/
inductive Task where
  | command (command : Command)
  | script (text : Text)
  /-- Become the program with these arguments. -/
  | program (arguments : List Text)

/-- A child of a script. -/
structure Work where
  state : State
  task : Task
  wiring : List Entry.Wiring

end LineShell.Script
