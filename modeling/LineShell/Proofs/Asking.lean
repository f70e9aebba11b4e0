/-
# LineShell.Proofs.Asking -- which calls each part of the shell asks

Looking a name up only tests paths, waiting for a child only waits for that one,
collecting jobs only polls, and changing the directory only asks about directories.
Launching does not poll, whatever is launched.  These facts hold for every answer of
the system, since they are read off the programs.
-/
import LineShell.Proofs.Tracing
import LineShell.Session

namespace LineShell

set_option autoImplicit false

open Program

/-- The calls of a run of the shell, with their answers. -/
abbrev Shell.Trace := List (Event Request Request.Answer)

/-- The children that were started, with their images. -/
def startedChildren (trace : Shell.Trace) : List Child :=
  trace.filterMap fun event =>
    match event.call with
    | .fork child => some child
    | _ => none

theorem mem_startedChildren {trace : Shell.Trace} {child : Child} :
    child ∈ startedChildren trace ↔ ∃ answer, ⟨.fork child, answer⟩ ∈ trace := by
  rw [startedChildren, List.mem_filterMap]
  constructor
  · rintro ⟨⟨call, answer⟩, mem, named⟩
    cases call <;> cases named
    exact ⟨answer, mem⟩
  · rintro ⟨answer, mem⟩
    exact ⟨_, mem, rfl⟩

namespace Request

/-- The call tests whether a path exists. -/
def IsTest : Request → Prop
  | .pathExists _ => True
  | _ => False

/-- The call asks for a child without blocking. -/
def IsPoll : Request → Prop
  | .poll _ => True
  | _ => False

/-- The call is about a directory that the shell may move to. -/
def IsSurvey : Request → Prop
  | .canonicalize _ => True
  | .isDirectory _ => True
  | _ => False

end Request

theorem firstExisting_asks (paths : List Path) : Asks Request.IsTest (Shell.firstExisting paths) := by
  induction paths with
  | nil => exact asks_pure none
  | cons path rest ih =>
      unfold Shell.firstExisting
      refine .bind (asks_request trivial) fun there => ?_
      split
      · exact asks_pure (some path)
      · exact ih

theorem locate_asks (name : String) (surroundings : Surroundings) :
    Asks Request.IsTest (Shell.locate name surroundings) := by
  unfold Shell.locate
  refine .bind (firstExisting_asks _) fun found => ?_
  split <;> exact asks_pure _

theorem await_asks (pid : Pid) : Asks (· = .wait pid) (Job.await pid) := by
  unfold Job.await
  exact .bind (asks_insist rfl Job.undecided) fun answer => asks_pure _

theorem pollFrom_asks (rest : Registry) :
    ∀ kept : Registry, Asks Request.IsPoll (Registry.pollFrom kept rest) := by
  induction rest with
  | nil => exact fun kept => asks_pure _
  | cons job rest ih =>
      intro kept
      unfold Registry.pollFrom
      refine .bind (asks_insist trivial _) fun answer => ?_
      split
      · split
        · exact asks_pure _
        · exact ih _
      · exact ih _

theorem drainWithin_asks (limit : Nat) :
    ∀ registry : Registry, Asks Request.IsPoll (Registry.drainWithin limit registry) := by
  induction limit with
  | zero => exact fun registry => asks_pure _
  | succ limit ih =>
      intro registry
      unfold Registry.drainWithin
      refine .bind (pollFrom_asks registry []) fun polled => ?_
      split
      · exact Asks.bind (ih _) fun later => asks_pure _
      · exact asks_pure _

theorem drain_asks (registry : Registry) : Asks Request.IsPoll registry.drain :=
  drainWithin_asks _ registry

theorem changeDirectory_asks (session : Session) (target : Option String) :
    Asks Request.IsSurvey (session.changeDirectory target) := by
  unfold Session.changeDirectory
  split
  · exact asks_pure _
  · refine .bind (asks_request trivial) fun resolved => ?_
    split
    · exact asks_pure _
    · refine .bind (asks_request trivial) fun directory => ?_
      split <;> exact asks_pure _

/-! ## Launching does not poll -/

theorem not_isPoll_of_isTest {call : Request} (test : call.IsTest) : ¬ call.IsPoll := by
  cases call <;> simp_all [Request.IsTest, Request.IsPoll]

theorem locate_asks_no_poll (name : String) (surroundings : Surroundings) :
    Asks (fun call => ¬ call.IsPoll) (Shell.locate name surroundings) :=
  (locate_asks name surroundings).imp fun _ => not_isPoll_of_isTest

theorem await_asks_no_poll (pid : Pid) : Asks (fun call => ¬ call.IsPoll) (Job.await pid) := by
  refine (await_asks pid).imp ?_
  rintro _ rfl
  exact not_false

theorem spawn_asks_no_poll (child : Child) (background : Bool) :
    Asks (fun call => ¬ call.IsPoll) (Launch.spawn child background) := by
  unfold Launch.spawn
  refine .bind (asks_request not_false) fun answer => ?_
  split <;> exact asks_pure _

theorem command_asks_no_poll (surroundings : Surroundings) (command : Command) (background : Bool) :
    Asks (fun call => ¬ call.IsPoll) (Launch.command surroundings command background) := by
  unfold Launch.command
  refine .bind (locate_asks_no_poll _ _) fun found => ?_
  split
  · exact asks_pure _
  · split
    · exact asks_pure _
    · refine .bind (spawn_asks_no_poll _ _) fun spawned => ?_
      split
      · exact asks_pure _
      · split
        · exact asks_pure _
        · refine .bind (await_asks_no_poll _) fun waited => ?_
          split <;> exact asks_pure _

theorem stages_asks_no_poll (left right : Image) (ends : Request.Ends) :
    Asks (fun call => ¬ call.IsPoll) (Launch.stages left right ends) := by
  have closed (descriptor : Descriptor) :
      Asks (fun call => ¬ call.IsPoll) (Shell.system (.close descriptor)) :=
    asks_request not_false
  unfold Launch.stages
  refine .bind (spawn_asks_no_poll _ _) fun spawned => ?_
  split
  · exact .bind (closed _) fun _ => .bind (closed _) fun _ => asks_pure _
  · refine .bind (spawn_asks_no_poll _ _) fun second => ?_
    refine .bind (closed _) fun _ => .bind (closed _) fun _ => ?_
    refine .bind (await_asks_no_poll _) fun _ => ?_
    split
    · exact asks_pure _
    · refine .bind (await_asks_no_poll _) fun waited => ?_
      split <;> exact asks_pure _

theorem pipe_asks_no_poll (surroundings : Surroundings) (left right : Command) :
    Asks (fun call => ¬ call.IsPoll) (Launch.pipe surroundings left right) := by
  unfold Launch.pipe
  split
  · exact asks_pure _
  · refine .bind (locate_asks_no_poll _ _) fun leftFound => ?_
    refine .bind (locate_asks_no_poll _ _) fun rightFound => ?_
    split
    · exact asks_pure _
    · refine .bind (asks_request not_false) fun made => ?_
      split
      · exact asks_pure _
      · exact stages_asks_no_poll _ _ _

end LineShell
