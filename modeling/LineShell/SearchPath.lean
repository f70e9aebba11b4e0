/-
# LineShell.SearchPath -- which file a command name stands for

A search path is cut at every colon; empty entries stay and stand for the
directory the child will run in.  The candidates for a name are tried in order
and the first that exists is taken.  An absolute name is tried as it is, before
the search path and, since joining an absolute path gives that path, also for
every entry of it.

`find?` is the choice under a fixed test, `locate` the program that asks the
system for each candidate.
-/
import LineShell.Path
import LineShell.Program

namespace LineShell

set_option autoImplicit false

/-- No candidate for a command name exists. -/
structure NotFound where
  name : String
  deriving DecidableEq, Repr

namespace NotFound

def message (error : NotFound) : String :=
  error.name ++ ": command not found"

end NotFound

namespace SearchPath

/-- The variable that holds the search path. -/
def variableName : Bytes := Bytes.ofText "PATH"

/-- The byte between the entries. -/
def colon : UInt8 := 0x3A

/-- Cut at every colon.  There is always at least one entry. -/
def entries : Bytes → List Bytes
  | [] => [[]]
  | byte :: rest =>
      if byte = colon then [] :: entries rest
      else
        match entries rest with
        | [] => [[byte]]
        | first :: later => (byte :: first) :: later

/-- The paths that are tried for a name, in order.  No search path at all is an empty one. -/
def candidates (name : String) (searchPath : Option Bytes) (directory : Path) : List Path :=
  let target := Path.ofText name
  let found := (entries (searchPath.getD [])).map fun entry =>
    directory.join (Path.join ⟨entry⟩ target)
  if target.isAbsolute then target :: found else found

/-- The first candidate that exists. -/
def find? (present : Path → Bool) (name : String) (searchPath : Option Bytes) (directory : Path) :
    Except NotFound Path :=
  match (candidates name searchPath directory).find? present with
  | some path => .ok path
  | none => .error ⟨name⟩

end SearchPath

end LineShell
