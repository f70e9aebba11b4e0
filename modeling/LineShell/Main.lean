/-
# LineShell.Main -- the shell as a program

The program reads its whole standard input, runs the shell on a system of its own
with that input, and writes what the shell and its children wrote.  The prompt and
the filter for log events are taken from the environment of the program.
-/
import LineShell.Host.Console

namespace LineShell.Main

set_option autoImplicit false

/-- Read a stream to its end. -/
partial def readAll (stream : IO.FS.Stream) (done : ByteArray) : IO ByteArray := do
  let block ← stream.read 65536
  if block.isEmpty then return done else readAll stream (done ++ block)

/-- The entry of a variable, if it is set. -/
def entryOf (name : String) : IO (List Bytes) := do
  return (← IO.getEnv name).toList.map fun value => Bytes.ofText (name ++ "=" ++ value)

/-- The directory that the shell starts in. -/
def home : String := "/home"

/-- The variables that are set in any case. -/
def standardEntries : List Bytes :=
  [Bytes.ofText "PATH=/bin", Bytes.ofText ("HOME=" ++ home)]

/-- Run the shell; its status. -/
def run : IO UInt32 := do
  let input ← readAll (← IO.getStdin) .empty
  let chosen := (← entryOf Settings.promptName) ++ (← entryOf Settings.logFilterName)
  let entries := standardEntries ++ chosen
  let (_, host) := Bench.newHost (.ofText home) entries
  match Console.run host entries input.toList with
  | none => return 1
  | some finished =>
      (← IO.getStdout).write ⟨finished.output.toArray⟩
      (← IO.getStderr).write ⟨finished.errors.toArray⟩
      return UInt32.ofNat finished.status

end LineShell.Main

/-- The program. -/
def main : IO UInt32 :=
  LineShell.Main.run
