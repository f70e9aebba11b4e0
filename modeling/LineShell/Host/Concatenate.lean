/-
# LineShell.Host.Concatenate -- the program that copies files to its output

The files are copied in the order of the arguments; `-`, or no argument at all, is
the standard input.  A file that cannot be read is reported and the others are
still copied; the exit code is then 1.  A failing output ends the program.
-/
import LineShell.Host.Action

namespace LineShell

set_option autoImplicit false

namespace Concatenate

/-- How much is read at once. -/
def blockSize : Nat := 131072

/-- How many blocks a file may have. -/
def blockLimit : Nat := 1000000000

/-- How copying a file went. -/
inductive Copied where
  | complete
  | unreadable (errno : Errno)
  | unwritable (errno : Errno)
  deriving DecidableEq, Repr

/-- Copy a descriptor to the standard output, at most `limit` blocks. -/
def copy (source : Descriptor) : Nat → Action Copied
  | 0 => return .complete
  | limit + 1 => do
      match ← Action.system (.read source blockSize) with
      | .error errno => return .unreadable errno
      | .ok block =>
          if block.isEmpty then return .complete
          else
            match ← Action.writeAll 1 block with
            | .error errno => return .unwritable errno
            | .ok () => copy source limit

/-- Report a failure under the program's name. -/
def report (name subject : Bytes) (errno : Errno) : Action Unit := do
  let _ ← Action.writeAll 2
    (name ++ Bytes.ofText ": " ++ subject ++ Bytes.ofText (": " ++ errno.systemText ++ "\n"))

/-- The argument that stands for the standard input. -/
def standardInput : Bytes := Bytes.ofText "-"

/-- Copy the file of an argument. -/
def copyFile (file : Bytes) : Action Copied := do
  if file = standardInput then copy 0 blockLimit
  else
    match ← Action.system (.openFile ⟨file⟩ .read) with
    | .error errno => return .unreadable errno
    | .ok descriptor =>
        let copied ← copy descriptor blockLimit
        let _ ← Action.system (.entry (.close descriptor))
        return copied

/-- Copy the files; the exit code, starting from the one so far. -/
def copyFiles (name : Bytes) (code : Int) : List Bytes → Action Int
  | [] => return code
  | file :: rest => do
      match ← copyFile file with
      | .complete => copyFiles name code rest
      | .unreadable errno =>
          report name file errno
          copyFiles name 1 rest
      | .unwritable errno =>
          report name (Bytes.ofText "write error") errno
          return 1

/-- The program with its arguments, the first of which is its name. -/
def program (arguments : List Bytes) : Action Int :=
  let name := arguments.headD (Bytes.ofText "cat")
  match arguments.tail with
  | [] => copyFiles name 0 [standardInput]
  | files => copyFiles name 0 files

end Concatenate

end LineShell
