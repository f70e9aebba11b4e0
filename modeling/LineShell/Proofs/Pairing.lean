/-
# LineShell.Proofs.Pairing -- the calls of a pipe

A wait for a child is a row of answers that leave it open what became of the child, and
one that settles it (`Job.Awaits`).  Once the images of both stages are there, a pipe is
one of four rows of calls (`Launch.Paired`): the system refuses the pipe, or the left
child, or only the right one, or both children are started and waited for, the left one
first.  Both are equivalences, so what else is to be said about the calls of a pipe is read
off these rows.
-/
import LineShell.Proofs.Asking

namespace LineShell

set_option autoImplicit false

open Program

/-! ## Waiting for one child -/

/-- Waits for a child, up to the one that settles what became of it. -/
inductive Job.Awaits (pid : Pid) : Shell.Trace → Except Errno Int → Prop where
  | again {answer : Except Errno WaitStatus} {rest : Shell.Trace} {result : Except Errno Int} :
      verdict answer = none → Awaits pid rest result →
      Awaits pid (⟨.wait pid, answer⟩ :: rest) result
  | settled {answer : Except Errno WaitStatus} {result : Except Errno Int} :
      verdict answer = some result → Awaits pid [⟨.wait pid, answer⟩] result

theorem Job.await_eq (pid : Pid) :
    Job.await pid = .ask (.wait pid) undecided fun answer =>
      .done ((verdict answer).getD (.error .EINTR)) :=
  rfl

section

variable {σ : Type} {step : (call : Request) → σ → call.Answer → σ → Prop} {state final : σ}
variable {trace : Shell.Trace}

theorem Program.Runs.awaits {pid : Pid} {result : Except Errno Int}
    (run : Runs step (Job.await pid) state trace result final) : Job.Awaits pid trace result := by
  generalize asked : Job.await pid = program at run
  rw [Job.await_eq] at asked
  induction run with
  | done value state => cases asked
  | again _ repeated _ ih =>
      cases asked
      exact .again (Option.isNone_iff_eq_none.1 repeated) (ih rfl)
  | @next call again next state middle final answer trace value _ usable later =>
      cases asked
      cases later
      obtain ⟨result, settled⟩ : ∃ result, Job.verdict answer = some result := by
        simpa [Job.undecided, Option.isSome_iff_exists] using usable
      rw [settled]
      exact .settled settled

theorem Job.Awaits.runs {pid : Pid} {result : Except Errno Int}
    (awaits : Job.Awaits pid trace result) :
    Runs Freely (Job.await pid) () trace result () := by
  induction awaits with
  | again unsettled _ ih => exact .again trivial (by simp [Job.undecided, unsettled]) ih
  | @settled answer result settled =>
      have last : Runs Freely (.done ((verdict answer).getD (.error .EINTR)) : Shell _) () [] result
          () := by
        rw [settled]
        exact .done result ()
      exact .next trivial (by simp [Job.undecided, settled]) last

/-! ## Starting both stages -/

/-- The child of the left stage: its output goes into the pipe. -/
def Launch.leftChild (image : Image) (ends : Request.Ends) : Child :=
  ⟨image, some ⟨ends.read, ends.write, 1⟩⟩

/-- The child of the right stage: its input comes out of the pipe. -/
def Launch.rightChild (image : Image) (ends : Request.Ends) : Child :=
  ⟨image, some ⟨ends.write, ends.read, 0⟩⟩

/-- What a pipe does with the images of its stages. -/
def Launch.pair (left right : Image) : Shell (Except LaunchError Int) := do
  match ← Shell.system .pipe with
  | .error errno => return .error (.system errno)
  | .ok ends => stages left right ends

/-- The calls of a pipe once the images are there, and what it comes to. -/
inductive Launch.Paired (left right : Image) : Shell.Trace → Except LaunchError Int → Prop where
  | unpiped (errno : Errno) : Paired left right [⟨.pipe, .error errno⟩] (.error (.system errno))
  | unstarted {ends : Request.Ends} (errno : Errno) :
      Paired left right
        [⟨.pipe, .ok ends⟩, ⟨.fork (leftChild left ends), .error errno⟩, ⟨.close ends.write, ()⟩,
          ⟨.close ends.read, ()⟩]
        (.error (.system errno))
  /-- The left child is waited for although there is no right one. -/
  | alone {ends : Request.Ends} {pid : Pid} {waits : Shell.Trace} {first : Except Errno Int}
      (errno : Errno) : Job.Awaits pid waits first →
      Paired left right
        (⟨.pipe, .ok ends⟩ :: ⟨.fork (leftChild left ends), .ok pid⟩ ::
          ⟨.fork (rightChild right ends), .error errno⟩ :: ⟨.close ends.read, ()⟩ ::
          ⟨.close ends.write, ()⟩ :: waits)
        (.error (.system errno))
  /-- Nothing of what became of the left child is in the result. -/
  | both {ends : Request.Ends} {pid other : Pid} {early late : Shell.Trace}
      {first second : Except Errno Int} : Job.Awaits pid early first → Job.Awaits other late second →
      Paired left right
        (⟨.pipe, .ok ends⟩ :: ⟨.fork (leftChild left ends), .ok pid⟩ ::
          ⟨.fork (rightChild right ends), .ok other⟩ :: ⟨.close ends.read, ()⟩ ::
          ⟨.close ends.write, ()⟩ :: (early ++ late))
        (second.mapError .system)

variable {left right : Image} {result : Except LaunchError Int}

theorem runs_spawn_bind {α : Type} {child : Child} {background : Bool}
    {rest : Except Errno Job → Shell α} {value : α} :
    Runs step (Launch.spawn child background >>= rest) state trace value final ↔
      ∃ answer later middle, trace = ⟨.fork child, answer⟩ :: later ∧
        step (.fork child) state answer middle ∧
        Runs step (rest (answer.map fun pid => ⟨pid, background⟩)) middle later value final := by
  constructor
  · intro run
    obtain ⟨_, late, middle, started, rfl, spawned, run⟩ := run.of_bind
    obtain ⟨answer, later, _, rfl, forked, last⟩ := runs_request_bind.1 spawned
    cases answer <;> obtain ⟨rfl, rfl, rfl⟩ := last.of_pure <;> exact ⟨_, late, _, rfl, forked, run⟩
  · rintro ⟨answer, later, middle, rfl, forked, run⟩
    have spawned : Runs step (Launch.spawn child background) state [⟨.fork child, answer⟩]
        (answer.map fun pid => ⟨pid, background⟩) middle := by
      refine runs_request_bind.2 ⟨answer, [], middle, rfl, forked, ?_⟩
      cases answer <;> exact .done _ middle
    exact spawned.bind run

theorem Program.Runs.paired (run : Runs step (Launch.pair left right) state trace result final) :
    Launch.Paired left right trace result := by
  obtain ⟨made, _, _, rfl, _, run⟩ := runs_request_bind.1 run
  cases made with
  | error errno =>
      obtain ⟨rfl, rfl, _⟩ := run.of_pure
      exact .unpiped errno
  | ok ends =>
      obtain ⟨answer, _, _, rfl, _, run⟩ := runs_spawn_bind.1 run
      cases answer with
      | error errno =>
          obtain ⟨_, _, _, rfl, _, run⟩ := runs_request_bind.1 run
          obtain ⟨_, _, _, rfl, _, run⟩ := runs_request_bind.1 run
          obtain ⟨rfl, rfl, _⟩ := run.of_pure
          exact .unstarted errno
      | ok pid =>
          obtain ⟨other, _, _, rfl, _, run⟩ := runs_spawn_bind.1 run
          obtain ⟨_, _, _, rfl, _, run⟩ := runs_request_bind.1 run
          obtain ⟨_, _, _, rfl, _, run⟩ := runs_request_bind.1 run
          obtain ⟨early, late, _, first, rfl, awaited, run⟩ := run.of_bind
          cases other with
          | error errno =>
              obtain ⟨rfl, rfl, _⟩ := run.of_pure
              rw [List.append_nil]
              exact .alone errno awaited.awaits
          | ok other =>
              obtain ⟨late, _, _, second, rfl, alsoAwaited, last⟩ := Runs.of_bind run
              cases second <;> obtain ⟨rfl, rfl, _⟩ := last.of_pure <;> rw [List.append_nil] <;>
                exact .both awaited.awaits alsoAwaited.awaits

theorem Launch.Paired.runs (paired : Launch.Paired left right trace result) :
    Runs Freely (Launch.pair left right) () trace result () := by
  cases paired with
  | unpiped errno => exact runs_request_bind.2 ⟨_, [], (), rfl, trivial, .done _ ()⟩
  | unstarted errno =>
      refine runs_request_bind.2 ⟨_, _, (), rfl, trivial, ?_⟩
      refine runs_spawn_bind.2 ⟨_, _, (), rfl, trivial, ?_⟩
      refine runs_request_bind.2 ⟨_, _, (), rfl, trivial, ?_⟩
      exact runs_request_bind.2 ⟨_, _, (), rfl, trivial, .done _ ()⟩
  | alone errno first =>
      refine runs_request_bind.2 ⟨_, _, (), rfl, trivial, ?_⟩
      refine runs_spawn_bind.2 ⟨_, _, (), rfl, trivial, ?_⟩
      refine runs_spawn_bind.2 ⟨_, _, (), rfl, trivial, ?_⟩
      refine runs_request_bind.2 ⟨_, _, (), rfl, trivial, ?_⟩
      refine runs_request_bind.2 ⟨_, _, (), rfl, trivial, ?_⟩
      exact first.runs.bind_done rfl
  | @both ends pid other early late firstResult secondResult first second =>
      refine runs_request_bind.2 ⟨_, _, (), rfl, trivial, ?_⟩
      refine runs_spawn_bind.2 ⟨_, _, (), rfl, trivial, ?_⟩
      refine runs_spawn_bind.2 ⟨_, _, (), rfl, trivial, ?_⟩
      refine runs_request_bind.2 ⟨_, _, (), rfl, trivial, ?_⟩
      refine runs_request_bind.2 ⟨_, _, (), rfl, trivial, ?_⟩
      refine first.runs.bind (second.runs.bind_done ?_)
      cases secondResult <;> rfl

end

end LineShell
