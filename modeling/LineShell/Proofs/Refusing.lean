/-
# LineShell.Proofs.Refusing -- what is refused is refused before anything is started

A launch can be refused for a name that is not found and for a string that holds a
NUL.  A command in a line of its own looks its name up and then checks all its strings
(`Runs.of_command`).  A pipe checks what both stages share, looks both names up and then
checks the strings of either stage, and a name that is not found is no reason to refuse
it (`Runs.of_pipe`).  A run that is refused has only tested paths; in any other run the
system is asked to start the child, or the pipe and both children, and nothing else.

What is started is said in two ways.  `forks` is about every system: when nothing is
refused the program comes to the start (`ComesTo`), so it cannot end before it.  `once` is
about runs that have ended: they hold no other start.  Only the system can keep the second
stage from being started, by refusing the pipe or the first child (`Launch.Starts`).

`Launch.refuses_first` joins these, for commands in either mode and for pipes.
-/
import LineShell.Proofs.Checking
import LineShell.Proofs.Collecting

namespace LineShell

set_option autoImplicit false

open Program

/-! ## The strings that a launch checks -/

/-- The image of a command is checked after its context. -/
theorem Launch.image_checks (surroundings : Surroundings) (command : Command) (program : Path) :
    Checks (Launch.image surroundings command program)
      (surroundings.strings ++ command.strings (some program)) fun image =>
        image.Carries surroundings command (some program) := by
  unfold Launch.image
  refine (Context.prepare_checks surroundings).bind fun context carries => ?_
  exact Image.prepare_checks carries command (some program)

/-- The whole left stage is checked before the right one. -/
theorem Launch.images_checks {surroundings : Surroundings} {context : Context}
    (carries : context.Carries surroundings) (left right : Command)
    (leftProgram rightProgram : Option Path) :
    Checks (Launch.images context left right leftProgram rightProgram)
      (left.strings leftProgram ++ right.strings rightProgram) fun both =>
        both.1.Carries surroundings left leftProgram ∧ both.2.Carries surroundings right rightProgram := by
  unfold Launch.images
  refine (Image.prepare_checks carries left leftProgram).bind fun first firstCarries => ?_
  refine (Image.prepare_checks carries right rightProgram).bind_ok fun second secondCarries => ?_
  exact ⟨firstCarries, secondCarries⟩

section

variable {σ : Type} {step : (call : Request) → σ → call.Answer → σ → Prop} {state final : σ}
variable {trace : Shell.Trace} {surroundings : Surroundings} {command : Command} {background : Bool}

/-! ## Commands -/

/-- The error says that nothing was started because something was refused. -/
def LaunchError.IsRefusal : LaunchError → Prop
  | .notFound _ => True
  | .nul _ => True
  | .system _ => False

/-- The result says of nothing that it was refused. -/
def Unrefused {α : Type} (result : Except LaunchError α) : Prop :=
  ∀ error, result = .error error → ¬ error.IsRefusal

theorem unrefused_ok {α : Type} (value : α) : Unrefused (.ok value) :=
  nofun

theorem unrefused_system {α : Type} (errno : Errno) :
    Unrefused (.error (.system errno) : Except LaunchError α) := by
  rintro _ ⟨⟩
  exact not_false

/-- What became of a command after its name was looked up. -/
inductive Launch.Ensues (surroundings : Surroundings) (command : Command) :
    Except NotFound Path → Shell.Trace → Except LaunchError Launched → Prop where
  | notFound (error : NotFound) :
      Ensues surroundings command (.error error) [] (.error (.notFound error))
  | nul {program : Path} (error : NulError) :
      FirstNul (surroundings.strings ++ command.strings (some program)) error.position →
      Ensues surroundings command (.ok program) [] (.error (.nul error))
  | forks {program : Path} {image : Image} {answer : Except Errno Pid} {waits : Shell.Trace}
      {result : Except LaunchError Launched} :
      WithoutNul (surroundings.strings ++ command.strings (some program)) →
      image.Carries surroundings command (some program) →
      (∀ event ∈ waits, ∃ pid, answer = .ok pid ∧ event.call = .wait pid) →
      Unrefused result →
      Ensues surroundings command (.ok program) (⟨.fork ⟨image, none⟩, answer⟩ :: waits) result

/-- A run of a command is a look-up and what ensues. -/
theorem Program.Runs.of_command {result : Except LaunchError Launched}
    (run : Runs step (Launch.command surroundings command background) state trace result final) :
    ∃ early late middle found, trace = early ++ late ∧
      Runs step (Shell.locate command.name surroundings) state early found middle ∧
        (late = [] → final = middle) ∧ Launch.Ensues surroundings command found late result := by
  unfold Launch.command at run
  obtain ⟨early, late, middle, found, rfl, looked, run⟩ := run.of_bind
  refine ⟨early, late, middle, found, rfl, looked, ?_⟩
  cases found with
  | error error =>
      obtain ⟨rfl, rfl, rfl⟩ := run.of_pure
      exact ⟨fun _ => rfl, .notFound error⟩
  | ok program =>
      have checks := Launch.image_checks surroundings command program
      simp only at run
      split at run
      · next error refused =>
          obtain ⟨rfl, rfl, rfl⟩ := run.of_pure
          exact ⟨fun _ => rfl, .nul error ((checks.refused error).1 refused)⟩
      · next image passed =>
          have clean := checks.withoutNul_of_ok passed
          have carries := checks.accepted image passed
          obtain ⟨answer, waits, _, rfl, _, run⟩ := runs_spawn_bind.1 run
          refine ⟨nofun, ?_⟩
          cases answer with
          | error errno =>
              obtain ⟨rfl, rfl, _⟩ := run.of_pure
              exact .forks clean carries (List.forall_mem_nil _) (unrefused_system errno)
          | ok pid =>
              simp only [Except.map] at run
              split at run
              · obtain ⟨rfl, rfl, _⟩ := run.of_pure
                exact .forks clean carries (List.forall_mem_nil _) (unrefused_ok _)
              · obtain ⟨waits, late, _, waited, rfl, awaited, last⟩ := run.of_bind
                have named : ∀ event ∈ waits, event.call = .wait pid := (await_asks pid).runs awaited
                have ended : late = [] ∧ Unrefused result := by
                  cases waited <;> obtain ⟨rfl, rfl, _⟩ := last.of_pure
                  · exact ⟨rfl, unrefused_system _⟩
                  · exact ⟨rfl, unrefused_ok _⟩
                obtain ⟨rfl, unrefused⟩ := ended
                rw [List.append_nil]
                exact .forks clean carries (fun event mem => ⟨pid, rfl, named event mem⟩) unrefused

theorem command_of_notFound {error : NotFound}
    (looked : Runs step (Shell.locate command.name surroundings) state trace (.error error) final) :
    Runs step (Launch.command surroundings command background) state trace
      (.error (.notFound error)) final :=
  looked.bind_done rfl

theorem command_of_nul {program : Path} {error : NulError}
    (looked : Runs step (Shell.locate command.name surroundings) state trace (.ok program) final)
    (found : FirstNul (surroundings.strings ++ command.strings (some program)) error.position) :
    Runs step (Launch.command surroundings command background) state trace (.error (.nul error))
      final := by
  have refused := ((Launch.image_checks surroundings command program).refused error).2 found
  refine looked.bind_done ?_
  simp only [refused]
  rfl

theorem command_forks {program : Path}
    (looked : Runs step (Shell.locate command.name surroundings) state trace (.ok program) final)
    (clean : WithoutNul (surroundings.strings ++ command.strings (some program))) :
    ∃ image, image.Carries surroundings command (some program) ∧
      ComesTo step (Launch.command surroundings command background) state trace
        (.fork ⟨image, none⟩) final := by
  obtain ⟨image, passed, carries⟩ :=
    (Launch.image_checks surroundings command program).ok_of_withoutNul clean
  refine ⟨image, carries, ?_⟩
  refine looked.comesTo_next ?_
  simp only [passed]
  rfl

/-! ## Pipes -/

/-- The call makes a pipe or a child. -/
def Request.IsStart : Request → Prop
  | .pipe => True
  | .fork _ => True
  | _ => False

/-- Both stages are started, unless the system refuses the pipe or the first child. -/
inductive Launch.Starts (left right : Image) : Shell.Trace → Except LaunchError Int → Prop where
  | unpiped (errno : Errno) : Starts left right [⟨.pipe, .error errno⟩] (.error (.system errno))
  | alone {ends : Request.Ends} {rest : Shell.Trace} (errno : Errno) :
      (∀ event ∈ rest, ¬ event.call.IsStart) →
      Starts left right
        (⟨.pipe, .ok ends⟩ :: ⟨.fork (leftChild left ends), .error errno⟩ :: rest)
        (.error (.system errno))
  | both {ends : Request.Ends} {pid : Pid} {answer : Except Errno Pid} {rest : Shell.Trace}
      {result : Except LaunchError Int} :
      (∀ event ∈ rest, ¬ event.call.IsStart) →
      Unrefused result →
      Starts left right
        (⟨.pipe, .ok ends⟩ :: ⟨.fork (leftChild left ends), .ok pid⟩ ::
          ⟨.fork (rightChild right ends), answer⟩ :: rest)
        result

theorem Job.Awaits.starts_nothing {pid : Pid} {result : Except Errno Int}
    (awaits : Job.Awaits pid trace result) : ∀ event ∈ trace, ¬ event.call.IsStart := by
  induction awaits with
  | again _ _ ih => exact List.forall_mem_cons.2 ⟨not_false, ih⟩
  | settled _ => exact List.forall_mem_cons.2 ⟨not_false, List.forall_mem_nil _⟩

theorem Launch.Paired.starts {left right : Image} {result : Except LaunchError Int}
    (paired : Launch.Paired left right trace result) : Launch.Starts left right trace result := by
  cases paired with
  | unpiped errno => exact .unpiped errno
  | unstarted errno => exact .alone errno (by simp [Request.IsStart])
  | alone errno first =>
      refine .both ?_ (unrefused_system errno)
      exact List.forall_mem_cons.2 ⟨not_false, List.forall_mem_cons.2 ⟨not_false, first.starts_nothing⟩⟩
  | @both ends pid other early late firstResult secondResult first second =>
      refine .both ?_ ?_
      · refine List.forall_mem_cons.2 ⟨not_false, List.forall_mem_cons.2 ⟨not_false, ?_⟩⟩
        exact List.forall_mem_append.2 ⟨first.starts_nothing, second.starts_nothing⟩
      · cases secondResult with
        | error errno => exact unrefused_system errno
        | ok code => exact unrefused_ok code

/-- What became of a pipe after its names were looked up; a stage may have no program. -/
inductive Launch.PipeEnsues (surroundings : Surroundings) (left right : Command)
    (leftProgram rightProgram : Option Path) : Shell.Trace → Except LaunchError Int → Prop where
  | nul (error : NulError) :
      FirstNul (left.strings leftProgram ++ right.strings rightProgram) error.position →
      PipeEnsues surroundings left right leftProgram rightProgram [] (.error (.nul error))
  | starts {first second : Image} {trace : Shell.Trace} {result : Except LaunchError Int} :
      WithoutNul (left.strings leftProgram ++ right.strings rightProgram) →
      first.Carries surroundings left leftProgram → second.Carries surroundings right rightProgram →
      Launch.Starts first second trace result →
      PipeEnsues surroundings left right leftProgram rightProgram trace result

/-- Both names are looked up, the left one first. -/
def Launch.Looks (step : (call : Request) → σ → call.Answer → σ → Prop) (surroundings : Surroundings)
    (left right : Command) (state : σ) (trace : Shell.Trace)
    (leftFound rightFound : Except NotFound Path) (final : σ) : Prop :=
  ∃ early late middle, trace = early ++ late ∧
    Runs step (Shell.locate left.name surroundings) state early leftFound middle ∧
      Runs step (Shell.locate right.name surroundings) middle late rightFound final

variable {left right : Command}

/-- A run of a pipe checks what both stages share, looks both up, and checks the rest; what is not
refused goes on with the images of both stages. -/
theorem Program.Runs.of_looked {result : Except LaunchError Int}
    (run : Runs step (Launch.pipe surroundings left right) state trace result final) :
    (∃ error : NulError, FirstNul surroundings.strings error.position ∧
      result = .error (.nul error) ∧ trace = [] ∧ final = state) ∨
    WithoutNul surroundings.strings ∧
      ∃ early late middle leftFound rightFound, trace = early ++ late ∧
        Launch.Looks step surroundings left right state early leftFound rightFound middle ∧
        ((∃ error : NulError,
          FirstNul (left.strings leftFound.toOption ++ right.strings rightFound.toOption)
            error.position ∧ result = .error (.nul error) ∧ late = [] ∧ final = middle) ∨
          ∃ first second,
            WithoutNul (left.strings leftFound.toOption ++ right.strings rightFound.toOption) ∧
            first.Carries surroundings left leftFound.toOption ∧
            second.Carries surroundings right rightFound.toOption ∧
            Runs step (Launch.pair first second) middle late result final) := by
  have shared := Context.prepare_checks surroundings
  unfold Launch.pipe at run
  split at run
  · next error refused =>
      obtain ⟨rfl, rfl, rfl⟩ := run.of_pure
      exact .inl ⟨error, (shared.refused error).1 refused, rfl, rfl, rfl⟩
  · next context prepared =>
      refine .inr ⟨shared.withoutNul_of_ok prepared, ?_⟩
      obtain ⟨early, _, _, leftFound, rfl, leftLooked, run⟩ := run.of_bind
      obtain ⟨late, rest, middle, rightFound, rfl, rightLooked, run⟩ := run.of_bind
      refine ⟨early ++ late, rest, middle, leftFound, rightFound, (List.append_assoc ..).symm,
        ⟨early, late, _, rfl, leftLooked, rightLooked⟩, ?_⟩
      have checks := Launch.images_checks (shared.accepted context prepared) left right
        leftFound.toOption rightFound.toOption
      split at run
      · next error refused =>
          obtain ⟨rfl, rfl, rfl⟩ := run.of_pure
          exact .inl ⟨error, (checks.refused error).1 refused, rfl, rfl, rfl⟩
      · next first second passed =>
          obtain ⟨leftCarries, rightCarries⟩ := checks.accepted _ passed
          exact .inr ⟨first, second, checks.withoutNul_of_ok passed, leftCarries, rightCarries, run⟩

/-- A run of a pipe checks what both stages share, looks both up, and then something ensues. -/
theorem Program.Runs.of_pipe {result : Except LaunchError Int}
    (run : Runs step (Launch.pipe surroundings left right) state trace result final) :
    (∃ error : NulError, FirstNul surroundings.strings error.position ∧
      result = .error (.nul error) ∧ trace = [] ∧ final = state) ∨
    WithoutNul surroundings.strings ∧
      ∃ early late middle leftFound rightFound, trace = early ++ late ∧
        Launch.Looks step surroundings left right state early leftFound rightFound middle ∧
        (late = [] → final = middle) ∧
        Launch.PipeEnsues surroundings left right leftFound.toOption rightFound.toOption late
          result := by
  rcases run.of_looked with refused |
    ⟨clean, early, late, middle, leftFound, rightFound, rfl, looks, ensues⟩
  · exact .inl refused
  · refine .inr ⟨clean, early, late, middle, leftFound, rightFound, rfl, looks, ?_⟩
    rcases ensues with ⟨error, found, rfl, rfl, rfl⟩ |
      ⟨first, second, clear, leftCarries, rightCarries, run⟩
    · exact ⟨fun _ => rfl, .nul error found⟩
    · have starts := run.paired.starts
      refine ⟨fun none => ?_, .starts clear leftCarries rightCarries starts⟩
      rw [none] at starts
      cases starts

theorem pipe_of_shared_nul {error : NulError} (state : σ)
    (found : FirstNul surroundings.strings error.position) :
    Runs step (Launch.pipe surroundings left right) state [] (.error (.nul error)) state := by
  have refused := ((Context.prepare_checks surroundings).refused error).2 found
  unfold Launch.pipe
  simp only [refused]
  exact .done _ state

theorem pipe_of_nul {leftFound rightFound : Except NotFound Path} {error : NulError}
    (clean : WithoutNul surroundings.strings)
    (looked : Launch.Looks step surroundings left right state trace leftFound rightFound final)
    (found : FirstNul (left.strings leftFound.toOption ++ right.strings rightFound.toOption)
      error.position) :
    Runs step (Launch.pipe surroundings left right) state trace (.error (.nul error)) final := by
  obtain ⟨context, prepared, carries⟩ :=
    (Context.prepare_checks surroundings).ok_of_withoutNul clean
  have checks := Launch.images_checks carries left right leftFound.toOption rightFound.toOption
  have refused := (checks.refused error).2 found
  obtain ⟨early, late, middle, rfl, leftLooked, rightLooked⟩ := looked
  unfold Launch.pipe
  simp only [prepared]
  refine leftLooked.bind (rightLooked.bind_done ?_)
  simp only [refused]
  rfl

/-- The pipe is asked for, and when the system makes it, the left stage, and when it is started, the
right one. -/
def Launch.StartsBoth (step : (call : Request) → σ → call.Answer → σ → Prop)
    (program : Shell (Except LaunchError Int)) (state : σ) (trace : Shell.Trace) (final : σ)
    (first second : Image) : Prop :=
  ComesTo step program state trace .pipe final ∧
    ∀ ends piped, step .pipe final (.ok ends) piped →
      ComesTo step program state (trace ++ [⟨.pipe, .ok ends⟩]) (.fork (leftChild first ends)) piped ∧
      ∀ pid started, step (.fork (leftChild first ends)) piped (.ok pid) started →
        ComesTo step program state
          (trace ++ [⟨.pipe, .ok ends⟩, ⟨.fork (leftChild first ends), .ok pid⟩])
          (.fork (rightChild second ends)) started

/-- Once both images are made, a pipe comes after its look-ups to whatever its start comes to. -/
theorem Launch.Looks.comesTo_pipe {leftFound rightFound : Except NotFound Path} {context : Context}
    {first second : Image} {more : Shell.Trace} {call : Request} {last : σ}
    (looked : Launch.Looks step surroundings left right state trace leftFound rightFound final)
    (prepared : Context.prepare surroundings = .ok context)
    (passed : Launch.images context left right leftFound.toOption rightFound.toOption =
      .ok (first, second))
    (comes : ComesTo step (Launch.pair first second) final more call last) :
    ComesTo step (Launch.pipe surroundings left right) state (trace ++ more) call last := by
  obtain ⟨early, late, middle, rfl, leftLooked, rightLooked⟩ := looked
  unfold Launch.pipe
  simp only [prepared]
  rw [List.append_assoc]
  refine leftLooked.comesTo (rightLooked.comesTo ?_)
  simp only [passed]
  exact comes

theorem Launch.Looks.runs_pipe {leftFound rightFound : Except NotFound Path} {context : Context}
    {first second : Image} {more : Shell.Trace} {result : Except LaunchError Int} {last : σ}
    (looked : Launch.Looks step surroundings left right state trace leftFound rightFound final)
    (prepared : Context.prepare surroundings = .ok context)
    (passed : Launch.images context left right leftFound.toOption rightFound.toOption =
      .ok (first, second))
    (run : Runs step (Launch.pair first second) final more result last) :
    Runs step (Launch.pipe surroundings left right) state (trace ++ more) result last := by
  obtain ⟨early, late, middle, rfl, leftLooked, rightLooked⟩ := looked
  unfold Launch.pipe
  simp only [prepared]
  rw [List.append_assoc]
  refine leftLooked.bind (rightLooked.bind ?_)
  simp only [passed]
  exact run

/-- When no string holds a NUL, both images are made. -/
theorem Launch.exists_images {leftProgram rightProgram : Option Path}
    (clean : WithoutNul surroundings.strings)
    (clear : WithoutNul (left.strings leftProgram ++ right.strings rightProgram)) :
    ∃ context first second, Context.prepare surroundings = .ok context ∧
      Launch.images context left right leftProgram rightProgram = .ok (first, second) ∧
      first.Carries surroundings left leftProgram ∧ second.Carries surroundings right rightProgram := by
  obtain ⟨context, prepared, carries⟩ :=
    (Context.prepare_checks surroundings).ok_of_withoutNul clean
  obtain ⟨⟨first, second⟩, passed, leftCarries, rightCarries⟩ :=
    (Launch.images_checks carries left right leftProgram rightProgram).ok_of_withoutNul clear
  exact ⟨context, first, second, prepared, passed, leftCarries, rightCarries⟩

theorem pipe_forks {leftFound rightFound : Except NotFound Path}
    (clean : WithoutNul surroundings.strings)
    (looked : Launch.Looks step surroundings left right state trace leftFound rightFound final)
    (clear : WithoutNul (left.strings leftFound.toOption ++ right.strings rightFound.toOption)) :
    ∃ first second, first.Carries surroundings left leftFound.toOption ∧
      second.Carries surroundings right rightFound.toOption ∧
        Launch.StartsBoth step (Launch.pipe surroundings left right) state trace final first second := by
  obtain ⟨context, first, second, prepared, passed, leftCarries, rightCarries⟩ :=
    Launch.exists_images clean clear
  refine ⟨first, second, leftCarries, rightCarries, ?_,
    fun ends piped made => ⟨?_, fun pid started forked => ?_⟩⟩
  · rw [← List.append_nil trace]
    exact looked.comesTo_pipe prepared passed (comesTo_first final rfl)
  · exact looked.comesTo_pipe prepared passed
      ((Runs.request made).comesTo_next rfl)
  · refine looked.comesTo_pipe prepared passed ((Runs.request made).comesTo ?_)
    exact ((Runs.request forked).bind_done rfl).comesTo_next rfl

/-! ## What is refused, and what is started otherwise -/

theorem locate_error {name : String} {error : NotFound}
    (looked : Runs step (Shell.locate name surroundings) state trace (.error error) final) :
    error = ⟨name⟩ := by
  unfold Shell.locate at looked
  obtain ⟨_, _, _, found, _, _, last⟩ := looked.of_bind
  cases found with
  | none =>
      obtain ⟨_, same, _⟩ := last.of_pure
      exact Except.error.inj same
  | some path =>
      obtain ⟨_, same, _⟩ := last.of_pure
      cases same

variable {session : Session}

theorem execute_of_error {error : LaunchError}
    (run : Runs step (Launch.command session.toSurroundings command background) state trace
      (.error error) final) :
    Runs step (session.execute command background) state trace (.error error, session) final :=
  run.bind_done rfl

/-- What the execution of a command refuses, and what it starts otherwise. -/
structure Session.Refuses (step : (call : Request) → σ → call.Answer → σ → Prop) (session : Session)
    (command : Command) (background : Bool) : Prop where
  /-- It is refused as not found exactly when the look-up fails. -/
  notFound_iff : ∀ state trace error kept final,
    Runs step (session.execute command background) state trace (.error (.notFound error), kept)
        final ↔
      kept = session ∧ error = ⟨command.name⟩ ∧
        Runs step (Shell.locate command.name session.toSurroundings) state trace (.error error) final
  /-- It is refused for a NUL exactly when the name was found and some string holds one. -/
  nul_iff : ∀ state trace error kept final,
    Runs step (session.execute command background) state trace (.error (.nul error), kept) final ↔
      kept = session ∧ ∃ program,
        Runs step (Shell.locate command.name session.toSurroundings) state trace (.ok program)
          final ∧
        FirstNul (session.strings ++ command.strings (some program)) error.position
  /-- A refusal has only tested paths. -/
  tests : ∀ state trace error kept final,
    Runs step (session.execute command background) state trace (.error error, kept) final →
      error.IsRefusal → ∀ event ∈ trace, event.call.IsTest
  /-- Without a NUL the child is the next that is asked for. -/
  forks : ∀ state trace program final,
    Runs step (Shell.locate command.name session.toSurroundings) state trace (.ok program) final →
      WithoutNul (session.strings ++ command.strings (some program)) →
      ∃ image, image.Carries session.toSurroundings command (some program) ∧
        ComesTo step (session.execute command background) state trace (.fork ⟨image, none⟩) final
  /-- No other child is ever asked for, and only this one is waited for. -/
  once : ∀ state trace result kept final,
    Runs step (session.execute command background) state trace (result, kept) final →
      Unrefused result →
      ∃ early middle program image answer waits,
        trace = early ++ ⟨.fork ⟨image, none⟩, answer⟩ :: waits ∧
        Runs step (Shell.locate command.name session.toSurroundings) state early (.ok program)
          middle ∧
        WithoutNul (session.strings ++ command.strings (some program)) ∧
        image.Carries session.toSurroundings command (some program) ∧
        ∀ event ∈ waits, ∃ pid, answer = .ok pid ∧ event.call = .wait pid

/-- What a pipe refuses, and what it starts otherwise. -/
structure Launch.PipeRefuses (step : (call : Request) → σ → call.Answer → σ → Prop)
    (surroundings : Surroundings) (left right : Command) : Prop where
  /-- A name that is not found is no reason to refuse. -/
  found : ∀ state trace error final,
    ¬ Runs step (Launch.pipe surroundings left right) state trace (.error (.notFound error)) final
  /-- It is refused for a NUL exactly when some string holds one, of those that both stages share
  before anything is looked up. -/
  nul_iff : ∀ state trace error final,
    Runs step (Launch.pipe surroundings left right) state trace (.error (.nul error)) final ↔
      (FirstNul surroundings.strings error.position ∧ trace = [] ∧ final = state) ∨
      WithoutNul surroundings.strings ∧ ∃ leftFound rightFound,
        Launch.Looks step surroundings left right state trace leftFound rightFound final ∧
        FirstNul (left.strings leftFound.toOption ++ right.strings rightFound.toOption)
          error.position
  /-- A refusal has only tested paths. -/
  tests : ∀ state trace error final,
    Runs step (Launch.pipe surroundings left right) state trace (.error error) final →
      error.IsRefusal → ∀ event ∈ trace, event.call.IsTest
  /-- Without a NUL both stages are started, found or not. -/
  forks : ∀ state trace leftFound rightFound final, WithoutNul surroundings.strings →
    Launch.Looks step surroundings left right state trace leftFound rightFound final →
    WithoutNul (left.strings leftFound.toOption ++ right.strings rightFound.toOption) →
    ∃ first second, first.Carries surroundings left leftFound.toOption ∧
      second.Carries surroundings right rightFound.toOption ∧
        Launch.StartsBoth step (Launch.pipe surroundings left right) state trace final first second
  /-- Nothing else is ever started. -/
  once : ∀ state trace result final,
    Runs step (Launch.pipe surroundings left right) state trace result final → Unrefused result →
      ∃ early middle leftFound rightFound first second late, trace = early ++ late ∧
        WithoutNul surroundings.strings ∧
        Launch.Looks step surroundings left right state early leftFound rightFound middle ∧
        WithoutNul (left.strings leftFound.toOption ++ right.strings rightFound.toOption) ∧
        first.Carries surroundings left leftFound.toOption ∧
        second.Carries surroundings right rightFound.toOption ∧
        Launch.Starts first second late result

/-- What is refused leaves the session as it was. -/
theorem Program.Runs.of_execute_error {error : LaunchError} {kept : Session}
    (run : Runs step (session.execute command background) state trace (.error error, kept) final) :
    kept = session ∧ Runs step (Launch.command session.toSurroundings command background) state trace
      (.error error) final := by
  obtain ⟨launching, registered⟩ := run.of_execute
  rcases registered with ⟨job, started, _⟩ | ⟨_, same⟩
  · cases started
  · exact ⟨same, launching⟩

theorem locate_tests {name : String} {found : Except NotFound Path}
    (looked : Runs step (Shell.locate name surroundings) state trace found final) :
    ∀ event ∈ trace, event.call.IsTest :=
  (locate_asks name surroundings).runs looked

theorem execute_refuses (step : (call : Request) → σ → call.Answer → σ → Prop) (session : Session)
    (command : Command) (background : Bool) : session.Refuses step command background where
  notFound_iff := by
    intro state trace error kept final
    constructor
    · intro run
      obtain ⟨rfl, launching⟩ := run.of_execute_error
      obtain ⟨early, late, middle, found, rfl, looked, ended, ensues⟩ := launching.of_command
      cases ensues with
      | notFound error =>
          obtain rfl := ended rfl
          rw [List.append_nil]
          exact ⟨rfl, locate_error looked, looked⟩
      | forks _ _ _ unrefused => exact absurd trivial (unrefused _ rfl)
    · rintro ⟨rfl, _, looked⟩
      exact execute_of_error (command_of_notFound looked)
  nul_iff := by
    intro state trace error kept final
    constructor
    · intro run
      obtain ⟨rfl, launching⟩ := run.of_execute_error
      obtain ⟨early, late, middle, found, rfl, looked, ended, ensues⟩ := launching.of_command
      cases ensues with
      | nul error first =>
          obtain rfl := ended rfl
          rw [List.append_nil]
          exact ⟨rfl, _, looked, first⟩
      | forks _ _ _ unrefused => exact absurd trivial (unrefused _ rfl)
    · rintro ⟨rfl, program, looked, found⟩
      exact execute_of_error (command_of_nul looked found)
  tests := by
    intro state trace error kept final run refusal
    obtain ⟨_, launching⟩ := run.of_execute_error
    obtain ⟨early, late, middle, found, rfl, looked, _, ensues⟩ := launching.of_command
    cases ensues with
    | notFound error => simpa using locate_tests looked
    | nul error first => simpa using locate_tests looked
    | forks _ _ _ unrefused => exact absurd refusal (unrefused _ rfl)
  forks := by
    intro state trace program final looked clean
    obtain ⟨image, carries, comes⟩ := command_forks looked clean
    exact ⟨image, carries, comes.bind⟩
  once := by
    intro state trace result kept final run unrefused
    obtain ⟨early, late, middle, found, rfl, looked, _, ensues⟩ := run.of_execute.1.of_command
    cases ensues with
    | notFound error => exact absurd trivial (unrefused _ rfl)
    | nul error first => exact absurd trivial (unrefused _ rfl)
    | forks clean carries waits _ =>
        exact ⟨early, middle, _, _, _, _, rfl, looked, clean, carries, waits⟩

theorem Launch.Starts.unrefused {first second : Image} {result : Except LaunchError Int}
    (starts : Launch.Starts first second trace result) : Unrefused result := by
  cases starts with
  | unpiped errno => exact unrefused_system errno
  | alone errno _ => exact unrefused_system errno
  | both _ unrefused => exact unrefused

theorem Launch.Looks.tests {leftFound rightFound : Except NotFound Path}
    (looks : Launch.Looks step surroundings left right state trace leftFound rightFound final) :
    ∀ event ∈ trace, event.call.IsTest := by
  obtain ⟨early, late, middle, rfl, leftLooked, rightLooked⟩ := looks
  exact List.forall_mem_append.2 ⟨locate_tests leftLooked, locate_tests rightLooked⟩

theorem pipe_refuses (step : (call : Request) → σ → call.Answer → σ → Prop)
    (surroundings : Surroundings) (left right : Command) :
    Launch.PipeRefuses step surroundings left right where
  found := by
    intro state trace error final run
    rcases run.of_pipe with ⟨_, _, same, _⟩ | ⟨_, _, _, _, _, _, _, _, _, ensues⟩
    · cases same
    · cases ensues with
      | starts _ _ _ starts => exact starts.unrefused _ rfl trivial
  nul_iff := by
    intro state trace error final
    constructor
    · intro run
      rcases run.of_pipe with ⟨_, first, same, rfl, rfl⟩ |
        ⟨clean, early, late, middle, _, _, rfl, looks, ended, ensues⟩
      · cases same
        exact .inl ⟨first, rfl, rfl⟩
      · cases ensues with
        | nul error first =>
            obtain rfl := ended rfl
            rw [List.append_nil]
            exact .inr ⟨clean, _, _, looks, first⟩
        | starts _ _ _ starts => exact absurd trivial (starts.unrefused _ rfl)
    · rintro (⟨first, rfl, rfl⟩ | ⟨clean, leftFound, rightFound, looks, first⟩)
      · exact pipe_of_shared_nul _ first
      · exact pipe_of_nul clean looks first
  tests := by
    intro state trace error final run refusal
    rcases run.of_pipe with ⟨_, _, _, rfl, _⟩ | ⟨_, early, late, _, _, _, rfl, looks, _, ensues⟩
    · simp
    · cases ensues with
      | nul error first => simpa using looks.tests
      | starts _ _ _ starts => exact absurd refusal (starts.unrefused _ rfl)
  forks := by
    intro state trace leftFound rightFound final clean looks clear
    exact pipe_forks clean looks clear
  once := by
    intro state trace result final run unrefused
    rcases run.of_pipe with ⟨_, _, rfl, _⟩ |
      ⟨clean, early, late, middle, leftFound, rightFound, rfl, looks, _, ensues⟩
    · exact absurd trivial (unrefused _ rfl)
    · cases ensues with
      | nul error first => exact absurd trivial (unrefused _ rfl)
      | starts clear leftCarries rightCarries starts =>
          exact ⟨early, middle, leftFound, rightFound, _, _, late, rfl, clean, looks, clear,
            leftCarries, rightCarries, starts⟩

/-- Whatever can be refused is refused before anything is started, with the first fault in the order
in which it is looked for, and what is not refused is started. -/
theorem Launch.refuses_first {σ : Type} (step : (call : Request) → σ → call.Answer → σ → Prop) :
    (∀ (session : Session) (command : Command) (background : Bool),
      session.Refuses step command background) ∧
    ∀ (session : Session) (left right : Command),
      Launch.PipeRefuses step session.toSurroundings left right :=
  ⟨execute_refuses step, fun session left right => pipe_refuses step session.toSurroundings left right⟩

-- A variable and an argument both hold a NUL: the variable comes first.
example :
    let perform : (call : Request) → Unit → Option (call.Answer × Unit)
      | .pathExists _, _ => some (true, ())
      | _, _ => none
    ((Launch.command ⟨Path.ofText "/", [⟨Bytes.ofText "A", [1, 0]⟩]⟩ ⟨"/b", ["\x00"], .none⟩
      false).runWith perform 1 ()).map Prod.fst = some (.error (.nul ⟨3⟩)) := by
  decide +kernel

end

end LineShell
