/-
# LineShell.Host.Console -- the dispatch loop on a system

The standard input is read in blocks, and lines are cut from what was read.  Since
children share the position in the input, they see it after the blocks that the
shell has read, whether its lines have been run or not.
-/
import LineShell.Dispatch
import LineShell.Host.Bench
import LineShell.Settings

namespace LineShell

set_option autoImplicit false

/-- A system with the part of the input that was read and not yet run. -/
structure Console where
  host : Host
  ahead : Bytes

namespace Console

/-- How much input is read at once. -/
def blockSize : Nat := 8192

/-- Write to a descriptor of the shell; what cannot be written is lost. -/
def write (console : Console) (descriptor : Descriptor) (bytes : Bytes) : Console :=
  match console.host.shell.descriptors.get? descriptor with
  | none => console
  | some handle =>
      match console.host.write handle bytes with
      | .ready _ host => { console with host := host }
      | .blocked => console

/-- Read a block of the input; nothing at its end. -/
def readBlock (console : Console) : Bytes × Host :=
  match console.host.shell.descriptors.get? 0 with
  | none => ([], console.host)
  | some handle =>
      match console.host.read handle blockSize with
      | .ready (.ok block) host => (block, host)
      | .ready (.error _) host => (([] : Bytes), host)
      | .blocked => ([], console.host)

/-- Take the next line, reading at most `limit` blocks. -/
def takeLine : Nat → Console → Bytes × Console
  | 0, console => (console.ahead, { console with ahead := [] })
  | limit + 1, console =>
      if console.ahead.contains Bytes.newline then
        let (line, rest) := Bytes.cutLine console.ahead
        (line, { console with ahead := rest })
      else
        let (block, host) := console.readBlock
        if block.isEmpty then (console.ahead, ⟨host, []⟩)
        else takeLine limit ⟨host, console.ahead ++ block⟩

/-- Answer a call of the loop. -/
def answer (prompt : Bytes) : (call : Dispatch.Call) → Console → Option (call.Answer × Console)
  | .prompt, console => some ((), console.write 1 prompt)
  | .readLine, console => some (console.takeLine Host.patience)
  | .runLine session line, console => do
      let (outcome, host) ← console.host.runShell (session.runLine line)
      let console := ({ console with host := host }).write 2 (Bytes.ofText outcome.errors)
      return (⟨outcome.session, outcome.flow⟩, console.write 1 (Bytes.ofText outcome.output))

/-- What a run of the shell leaves behind. -/
structure Finished where
  status : Nat
  output : Bytes
  errors : Bytes
  host : Host

/-- Run the shell with an environment on a system, in the directory of its process. -/
def run (host : Host) (entries : List Bytes) (script : Bytes) : Option Finished := do
  let (capture, host) := host.attachStreams script
  let environment := Environment.ofEntries entries
  let finished (status : Nat) (host : Host) : Finished :=
    ⟨status, host.contents capture.output, host.contents capture.errors, host⟩
  match host.store.pathOf? host.shell.directory with
  | none =>
      let message := (StartError.mk .ENOENT).message ++ "\n"
      return finished StartError.status ((⟨host, []⟩ : Console).write 2 (Bytes.ofText message)).host
  | some directory =>
      let session := Session.start ⟨directory, environment⟩
      let prompt := Bytes.ofText (Settings.ofEnvironment environment).prompt
      let loop := Dispatch.loop (script.length + 2) session
      let (finish, console) ← loop.runWith (answer prompt) Host.repetitions ⟨host, []⟩
      return finished (← finish).status console.host

end Console

end LineShell
