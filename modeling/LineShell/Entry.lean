/-
# LineShell.Entry -- what a child does before its program takes over

A child enters the directory, opens its input and then its output, and hands
itself over to its program.  It stops at the first failure with one report on
descriptor 2 and an exit code: 1 when the directory or a file was refused, 127
when there is no such program, 126 when there is one that cannot be executed.
A report is written part by part, and nobody looks at what becomes of a write.

Opening a file for a standard stream (`rebind`) has to give the stream the new
file and leave no second descriptor for it, whatever number the system hands out;
the stream's own number may be the lowest free one.  A stage of a pipe is wired
first: it drops the end it does not use and moves the other one into place.
-/
import LineShell.Errno
import LineShell.Image

namespace LineShell

set_option autoImplicit false

/-- The number of an open file in a process. -/
abbrev Descriptor := Nat

namespace Entry

/-- How a file for a standard stream is opened. -/
inductive Access where
  | read
  /-- For writing; the file is created with mode 644 if it is missing and emptied if it is not. -/
  | truncate
  deriving DecidableEq, Repr

/-- What a child asks of the system. -/
inductive Call where
  | enterDirectory (directory : NulFree)
  | openFile (file : NulFree) (access : Access)
  | duplicate (source target : Descriptor)
  | close (descriptor : Descriptor)
  | execute (program : NulFree) (arguments environment : List NulFree)
  | write (descriptor : Descriptor) (bytes : Bytes)
  deriving DecidableEq

/-- What the system answers.  Executing a program answers only when it fails, and a write answers how
many bytes were taken. -/
abbrev Call.Answer : Call → Type
  | .enterDirectory _ => Except Errno Unit
  | .openFile _ _ => Except Errno Descriptor
  | .duplicate _ _ => Except Errno Unit
  | .close _ => Except Errno Unit
  | .execute _ _ _ => Errno
  | .write _ _ => Except Errno Nat

end Entry

/-- The steps of a child between its start and its program. -/
abbrev Entry := Program Entry.Call Entry.Call.Answer

namespace Entry

def exitNotFound : Int := 127

def exitNotExecutable : Int := 126

def exitSetupFailed : Int := 1

/-- Ask the system once. -/
def system (call : Call) : Entry call.Answer :=
  Program.request call

/-- Open a file in the place of a standard stream. -/
def rebind (file : NulFree) (access : Access) (stream : Descriptor) : Entry (Except Errno Unit) := do
  match ← system (.openFile file access) with
  | .error errno => return .error errno
  | .ok opened =>
      if opened = stream then return .ok ()
      else
        match ← system (.duplicate opened stream) with
        | .error errno => return .error errno
        | .ok () => system (.close opened)

/-- Which end of a pipe a stage drops, and which one becomes which of its streams. -/
structure Wiring where
  unused : Descriptor
  used : Descriptor
  stream : Descriptor
  deriving DecidableEq, Repr

/-- Put an end of a pipe in the place of a standard stream. -/
def wire (wiring : Wiring) : Entry (Except Errno Unit) := do
  match ← system (.close wiring.unused) with
  | .error errno => return .error errno
  | .ok () =>
      match ← system (.duplicate wiring.used wiring.stream) with
      | .error errno => return .error errno
      | .ok () => system (.close wiring.used)

/-- The descriptor for reports. -/
def standardError : Descriptor := 2

/-- Write a report, one part after the other. -/
def report : List Bytes → Entry Unit
  | [] => return ()
  | part :: rest => do
      let _ ← system (.write standardError part)
      report rest

/-- The parts of the report that a directory or a file was refused. -/
def refusal (subject : Bytes) (errno : Errno) : List Bytes :=
  [subject, Bytes.ofText ": ", Bytes.ofText errno.description, Bytes.ofText "\n"]

/-- Report that a directory or a file was refused. -/
def refuse (subject : Bytes) (errno : Errno) : Entry Int := do
  report (refusal subject errno)
  return exitSetupFailed

/-- Open the file for a stream, if the image names one. -/
def redirect (file : Option NulFree) (access : Access) (stream : Descriptor)
    (rest : Entry Int) : Entry Int :=
  match file with
  | none => rest
  | some target => do
      match ← rebind target access stream with
      | .error errno => refuse target.bytes errno
      | .ok () => rest

/-- Hand over to the program; the exit code when that is impossible. -/
def handOver (image : Image) : Entry Int :=
  match image.program with
  | none => do
      report [image.notFoundReport]
      return exitNotFound
  | some program => do
      let errno ← system (.execute program image.arguments image.context.environment)
      report [image.notFoundReport]
      return if errno = .ENOENT then exitNotFound else exitNotExecutable

/-- The steps of a child whose streams are in place; the exit code when one of them fails. -/
def enter (image : Image) : Entry Int := do
  match ← system (.enterDirectory image.context.directory) with
  | .error errno => refuse image.context.directory.bytes errno
  | .ok () => redirect image.stdin .read 0 (redirect image.stdout .truncate 1 (handOver image))

end Entry

/-- A child that is started: its image, and its end of a pipe if it is a stage of one. -/
structure Child where
  image : Image
  wiring : Option Entry.Wiring
  deriving DecidableEq

namespace Child

/-- All the steps of a child. -/
def steps (child : Child) : Entry Int :=
  match child.wiring with
  | none => Entry.enter child.image
  | some wiring => do
      match ← Entry.wire wiring with
      | .error errno =>
          Entry.report
            [Bytes.ofText "pipe: ", Bytes.ofText errno.description, Bytes.ofText "\n"]
          return Entry.exitSetupFailed
      | .ok () => Entry.enter child.image

end Child

end LineShell
