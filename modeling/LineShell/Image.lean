/-
# LineShell.Image -- everything a child needs, checked before it is started

An image holds the directory, the environment, the program and its arguments, and
the files for the standard streams, all as strings that a system call can take.
Making one is the only place where a NUL can be refused.  When several strings
hold one, the first of this order is reported: the directory, the environment,
the program, the input file, the output file, the arguments.
-/
import LineShell.Command
import LineShell.Environment
import LineShell.SearchPath

namespace LineShell

set_option autoImplicit false

/-- Where a command runs: its directory and the variables it inherits. -/
structure Surroundings where
  directory : Path
  environment : Environment
  deriving DecidableEq

namespace Surroundings

/-- The search path that commands are looked up with. -/
def searchPath (surroundings : Surroundings) : Option Bytes :=
  surroundings.environment.value? SearchPath.variableName

end Surroundings

/-- The directory and the environment of a child. -/
structure Context where
  directory : NulFree
  environment : List NulFree
  deriving DecidableEq

namespace Context

def prepare (surroundings : Surroundings) : Except NulError Context := do
  let directory ← NulFree.ofBytes surroundings.directory.bytes
  let environment ← surroundings.environment.entries.mapM NulFree.ofBytes
  return ⟨directory, environment⟩

end Context

/-- A child that is ready to be started.  It has no program when the name was not found. -/
structure Image where
  name : String
  program : Option NulFree
  arguments : List NulFree
  context : Context
  stdin : Option NulFree
  stdout : Option NulFree
  deriving DecidableEq

namespace Image

/-- Check a file name that may be missing. -/
def optional : Option Path → Except NulError (Option NulFree)
  | none => .ok none
  | some path => (NulFree.ofBytes path.bytes).map some

/-- The image of a command whose name was found at `program`. -/
def prepare (command : Command) (program : Option Path) (context : Context) :
    Except NulError Image := do
  let program ← optional program
  let stdin ← optional command.redirects.stdin
  let stdout ← optional command.redirects.stdout
  let arguments ← command.tokens.mapM fun token => NulFree.ofBytes (Bytes.ofText token)
  return ⟨command.name, program, arguments, context, stdin, stdout⟩

/-- What the child says when its program cannot be executed. -/
def notFoundReport (image : Image) : Bytes :=
  Bytes.ofText ((NotFound.mk image.name).message ++ "\n")

end Image

end LineShell
