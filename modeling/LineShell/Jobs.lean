/-
# LineShell.Jobs -- waiting for children, and the jobs that run in the background

A child in the foreground is waited for until its status is final.  A child in
the background is a job: it stays in the registry, in the order of the starts,
until a poll finds that it is gone.  A poll goes through the registry once and
stops at the first job that is gone; a job that cannot be polled any more is
dropped without a report.  Draining polls until nothing more is found.
-/
import LineShell.Request

namespace LineShell

set_option autoImplicit false

/-- A started child, and whether it runs in the background. -/
structure Job where
  pid : Pid
  background : Bool
  deriving DecidableEq, Repr

/-- The jobs that have not been collected, in the order of their starts. -/
abbrev Registry := List Job

/-- What became of one poll. -/
inductive Poll where
  | terminated (pid : Pid) (code : Int)
  | noneReady
  | noChildren
  deriving DecidableEq, Repr

/-- A child that was collected, and its exit code. -/
structure Collected where
  pid : Pid
  code : Int
  deriving DecidableEq, Repr

namespace Job

/-- The verdict on an answer to a blocking wait; nothing when the wait has to be repeated. -/
def verdict : Except Errno WaitStatus → Option (Except Errno Int)
  | .ok status => status.code.map .ok
  | .error .EINTR => none
  | .error errno => some (.error errno)

/-- Whether the wait has to be repeated. -/
def undecided (answer : Except Errno WaitStatus) : Bool :=
  (verdict answer).isNone

/-- Wait until a child is gone. -/
def await (pid : Pid) : Shell (Except Errno Int) := do
  let answer : Except Errno WaitStatus ← Shell.repeatedly (.wait pid) undecided
  return (verdict answer).getD (.error .EINTR)

end Job

namespace Registry

/-- Whether a child is registered. -/
def holds (registry : Registry) (pid : Pid) : Bool :=
  registry.any fun job => job.pid == pid

/-- A poll that was interrupted is made again. -/
def interrupted : Except Errno WaitStatus → Bool
  | .error .EINTR => true
  | _ => false

/-- Poll the jobs that are left, in order, after those in `kept` have been found running. -/
def pollFrom (kept : Registry) : Registry → Shell (Poll × Registry)
  | [] => return (if kept.isEmpty then .noChildren else .noneReady, kept)
  | job :: rest => do
      match ← Shell.repeatedly (.poll job.pid) interrupted with
      | .ok status =>
          match status.code with
          | some code => return (.terminated job.pid code, kept ++ rest)
          | none => pollFrom (kept ++ [job]) rest
      | .error _ => pollFrom kept rest

/-- Look for one job that is gone. -/
def pollOnce (registry : Registry) : Shell (Poll × Registry) :=
  pollFrom [] registry

/-- Poll until nothing is found, at most `limit` times. -/
def drainWithin : Nat → Registry → Shell (List Collected × Registry)
  | 0, registry => return ([], registry)
  | limit + 1, registry => do
      match ← pollOnce registry with
      | (.terminated pid code, rest) =>
          let (later, left) ← drainWithin limit rest
          return (⟨pid, code⟩ :: later, left)
      | (_, rest) => return ([], rest)

/-- Collect every job that is gone.  Each poll that finds one shortens the registry, so the
registry's length bounds the number of polls. -/
def drain (registry : Registry) : Shell (List Collected × Registry) :=
  drainWithin (registry.length + 1) registry

end Registry

end LineShell
