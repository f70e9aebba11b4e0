/-
# LineShell.Proofs.Reporting -- what a line says, and which line registers a job

About what it was asked for a line says one thing or nothing.  What it says is told by its
errand and by the calls that were made for it, without those for the jobs (`Errand.Fails`):
the directory was not changed, the text could not be parsed, nothing was launched, or a
child in the foreground left with another code than zero.  Only a command that was sent to
the background becomes a job (`Errand.Starts`), and everything else that is written tells
of jobs that are gone.  The calls are those of a whole run of the errand's work, so a line
cannot be silent because it has left the work out.

A code is the one of the last child that was started: `Launch.Forked` is the row of calls
of a command, as `Launch.Paired` is the one of a pipe, and either row ends with the wait
for this child (`LeftWith`).

`Session.runLine_reports` is the statement about every line.
-/
import LineShell.Proofs.Racing
import LineShell.Proofs.Siblings
import LineShell.Proofs.Undisturbed

namespace LineShell

set_option autoImplicit false

open Program

/-! ## The calls of a command -/

/-- The calls of a command once its image is there, and what it comes to. -/
inductive Launch.Forked (image : Image) : Bool → Shell.Trace → Except LaunchError Launched → Prop where
  | unstarted (background : Bool) (errno : Errno) :
      Forked image background [⟨.fork ⟨image, none⟩, .error errno⟩] (.error (.system errno))
  | detached (pid : Pid) :
      Forked image true [⟨.fork ⟨image, none⟩, .ok pid⟩] (.ok (.started ⟨pid, true⟩))
  | refused {pid : Pid} {waits : Shell.Trace} {errno : Errno} : Job.Awaits pid waits (.error errno) →
      Forked image false (⟨.fork ⟨image, none⟩, .ok pid⟩ :: waits) (.error (.system errno))
  | attached {pid : Pid} {waits : Shell.Trace} {code : Int} : Job.Awaits pid waits (.ok code) →
      Forked image false (⟨.fork ⟨image, none⟩, .ok pid⟩ :: waits) (.ok (.finished code))

/-- The child is the last one that was started, and the last answer tells its exit code. -/
def LeftWith (child : Child) (code : Int) (trace : Shell.Trace) : Prop :=
  ∃ before pid waits status,
    trace = before ++ ⟨.fork child, .ok pid⟩ :: (waits ++ [⟨.wait pid, .ok status⟩]) ∧
      status.code = some code ∧ ∀ event ∈ waits, ¬ event.call.IsStart

section

variable {σ : Type} {step : (call : Request) → σ → call.Answer → σ → Prop} {state final : σ}
variable {surroundings : Surroundings} {command : Command} {background : Bool}
variable {trace : Shell.Trace} {code : Int}

/-- A command that is not refused is its look-up and the calls for its child. -/
theorem Program.Runs.forked {result : Except LaunchError Launched}
    (run : Runs step (Launch.command surroundings command background) state trace result final)
    (accepted : Unrefused result) :
    ∃ early late program image, trace = early ++ late ∧
      image.Carries surroundings command (some program) ∧ Launch.Forked image background late result := by
  unfold Launch.command at run
  obtain ⟨early, late, _, found, rfl, _, run⟩ := run.of_bind
  cases found with
  | error error =>
      obtain ⟨_, rfl, _⟩ := run.of_pure
      exact absurd trivial (accepted _ rfl)
  | ok program =>
      have checks := Launch.image_checks surroundings command program
      simp only at run
      split at run
      · obtain ⟨_, rfl, _⟩ := run.of_pure
        exact absurd trivial (accepted _ rfl)
      · next image passed =>
          refine ⟨early, late, program, image, rfl, checks.accepted image passed, ?_⟩
          obtain ⟨answer, _, _, rfl, _, run⟩ := runs_spawn_bind.1 run
          cases answer with
          | error errno =>
              obtain ⟨rfl, rfl, _⟩ := run.of_pure
              exact .unstarted background errno
          | ok pid =>
              cases background with
              | true =>
                  obtain ⟨rfl, rfl, _⟩ := run.of_pure
                  exact .detached pid
              | false =>
                  obtain ⟨waits, _, _, waited, rfl, awaited, last⟩ := Runs.of_bind run
                  cases waited <;> obtain ⟨rfl, rfl, _⟩ := last.of_pure <;> rw [List.append_nil]
                  · exact .refused awaited.awaits
                  · exact .attached awaited.awaits

/-! ## The exit code of a child -/

/-- Waiting for a child ends with its exit code. -/
theorem Job.Awaits.ends_with {pid : Pid} (awaits : Job.Awaits pid trace (.ok code)) :
    ∃ waits status, trace = waits ++ [⟨.wait pid, .ok status⟩] ∧ status.code = some code := by
  generalize heard : (.ok code : Except Errno Int) = result at awaits
  induction awaits with
  | again _ _ ih =>
      obtain ⟨waits, status, rfl, told⟩ := ih heard
      exact ⟨_ :: waits, status, rfl, told⟩
  | @settled answer result settled =>
      subst heard
      cases answer with
      | error errno => cases errno <;> cases settled
      | ok status =>
          refine ⟨[], status, rfl, ?_⟩
          obtain ⟨told, same⟩ := Option.map_eq_some_iff.1 settled
          cases same.2
          exact same.1

theorem Job.Awaits.left_with {pid : Pid} {between : Shell.Trace}
    (awaits : Job.Awaits pid trace (.ok code)) (child : Child) (before : Shell.Trace)
    (quiet : ∀ event ∈ between, ¬ event.call.IsStart) :
    LeftWith child code (before ++ ⟨.fork child, .ok pid⟩ :: (between ++ trace)) := by
  have nothing := awaits.starts_nothing
  obtain ⟨waits, status, rfl, told⟩ := awaits.ends_with
  refine ⟨before, pid, between ++ waits, status, by rw [List.append_assoc], told, ?_⟩
  exact List.forall_mem_append.2 ⟨quiet, (List.forall_mem_append.1 nothing).1⟩

/-- What is said of a command is the code of its child. -/
theorem left_with_of_command
    (run : Runs step (Launch.command surroundings command false) state trace (.ok (.finished code)) final) :
    ∃ image program, image.Carries surroundings command (some program) ∧
      LeftWith ⟨image, none⟩ code trace := by
  obtain ⟨early, late, program, image, rfl, carries, forked⟩ := run.forked (unrefused_ok _)
  refine ⟨image, program, carries, ?_⟩
  cases forked with
  | attached awaits => exact awaits.left_with _ early (List.forall_mem_nil _)

/-- What is said of a pipe is the code of the right child. -/
theorem left_with_of_pipe {left right : Command}
    (run : Runs step (Launch.pipe surroundings left right) state trace (.ok code) final) :
    ∃ image program ends, image.Carries surroundings right program ∧
      LeftWith (Launch.rightChild image ends) code trace := by
  obtain ⟨looked, _, _, _, rightFound, first, second, rfl, _, _, carries, run⟩ :=
    run.of_unrefused_pipe nofun
  have paired := run.paired
  generalize heard : (.ok code : Except LaunchError Int) = result at paired
  cases paired with
  | @both ends pid other early late firstResult secondResult leftAwaits rightAwaits =>
      refine ⟨second, rightFound.toOption, ends, carries, ?_⟩
      cases secondResult with
      | error errno => cases heard
      | ok told =>
          obtain rfl := Except.ok.inj heard
          have quiet : ∀ event ∈ ⟨.close ends.read, ()⟩ :: ⟨.close ends.write, ()⟩ :: early,
              ¬ event.call.IsStart :=
            List.forall_mem_cons.2 ⟨not_false, List.forall_mem_cons.2 ⟨not_false,
              leftAwaits.starts_nothing⟩⟩
          have left := rightAwaits.left_with (Launch.rightChild second ends)
            (looked ++ [⟨.pipe, .ok ends⟩, ⟨.fork (Launch.leftChild first ends), .ok pid⟩]) quiet
          simpa using left
  | _ => cases heard

/-- A job is in the background, and its child is the last thing that was asked for. -/
theorem started_of_command {job : Job}
    (run : Runs step (Launch.command surroundings command true) state trace (.ok (.started job)) final) :
    job.background = true ∧ ∃ before image program, image.Carries surroundings command (some program) ∧
      trace = before ++ [⟨.fork ⟨image, none⟩, .ok job.pid⟩] := by
  obtain ⟨early, late, program, image, rfl, carries, forked⟩ := run.forked (unrefused_ok _)
  cases forked with
  | detached pid => exact ⟨rfl, early, image, program, carries, rfl⟩

/-- A command that runs in the background is not waited for. -/
theorem unfinished_of_command
    (run : Runs step (Launch.command surroundings command true) state trace (.ok (.finished code)) final) :
    False := by
  obtain ⟨_, _, _, _, _, _, forked⟩ := run.forked (unrefused_ok _)
  cases forked

/-! ## What goes wrong with an errand -/

/-- What goes wrong with an errand, and what is said about it.  The calls are the ones that were made
for the errand itself. -/
inductive Errand.Fails (step : (call : Request) → σ → call.Answer → σ → Prop) (session : Session)
    (state : σ) (asked : Shell.Trace) : Errand → String → Prop where
  | directory {argument : String} {error : DirectoryError} {left : Session} {final : σ} :
      Runs step (session.changeDirectory (Session.directoryArgument argument)) state asked
        (.error error, left) final →
      Fails step session state asked (.move argument) error.message
  /-- Nothing is said about a line without words. -/
  | parse {error : ParseError} : error ≠ .empty →
      Fails step session state asked (.complain error) ("minish: " ++ error.message)
  | detached {command : Command} {error : LaunchError} {final : σ} :
      Runs step (Launch.command session.toSurroundings command true) state asked (.error error) final →
      Fails step session state asked (.send command) error.message
  | attached {command : Command} {error : LaunchError} {final : σ} :
      Runs step (Launch.command session.toSurroundings command false) state asked (.error error) final →
      Fails step session state asked (.run command) error.message
  | code {command : Command} {code : Int} {final : σ} :
      Runs step (Launch.command session.toSurroundings command false) state asked
        (.ok (.finished code)) final →
      code ≠ 0 →
      Fails step session state asked (.run command)
        ("Program terminated with exit code " ++ toString code)
  | pipe {left right : Command} {error : LaunchError} {final : σ} :
      Runs step (Launch.pipe session.toSurroundings left right) state asked (.error error) final →
      Fails step session state asked (.join left right) error.message
  | rightCode {left right : Command} {code : Int} {final : σ} :
      Runs step (Launch.pipe session.toSurroundings left right) state asked (.ok code) final →
      code ≠ 0 →
      Fails step session state asked (.join left right)
        ("Program terminated with exit code " ++ toString code)

/-- A command is started in the background, and the system names its child. -/
def Errand.Starts (step : (call : Request) → σ → call.Answer → σ → Prop) (session : Session)
    (state : σ) (asked : Shell.Trace) (errand : Errand) (pid : Pid) : Prop :=
  ∃ command final, errand = .send command ∧
    Runs step (Launch.command session.toSurroundings command true) state asked
      (.ok (.started ⟨pid, true⟩)) final

variable {session : Session} {errand : Errand} {work : Work} {middle : σ} {asked : Shell.Trace}

theorem codeComplaint_eq_some_iff {complaint : Complaint} :
    Session.codeComplaint code = some complaint ↔ code ≠ 0 ∧ complaint = .exitCode code := by
  unfold Session.codeComplaint
  split <;> simp_all [eq_comm]

/-- The work complains of what is said to have gone wrong. -/
def Work.Tells (work : Work) (text : String) : Prop :=
  ∃ complaint, work.complaint = some complaint ∧ text = complaint.message

theorem Work.Tells.unique {text other : String} (tells : work.Tells text) (also : work.Tells other) :
    text = other := by
  obtain ⟨complaint, said, rfl⟩ := tells
  obtain ⟨same, alsoSaid, rfl⟩ := also
  rw [Option.some.inj (said.symm.trans alsoSaid)]

theorem Errand.complain_fails_iff (error : ParseError) (text : String) :
    Fails step session state asked (.complain error) text ↔
      Work.Tells ⟨surroundings, Session.parseComplaint error, none⟩ text := by
  constructor
  · intro failed
    cases failed with
    | parse some => cases error <;> first | exact ⟨_, rfl, rfl⟩ | exact absurd rfl some
  · rintro ⟨complaint, said, rfl⟩
    cases error <;> cases said <;> exact .parse nofun

theorem Errand.move_fails_iff {argument : String} {moved : Except DirectoryError Unit × Session}
    (changed : Runs step (session.changeDirectory (Session.directoryArgument argument)) state asked
      moved middle) (text : String) :
    Fails step session state asked (.move argument) text ↔
      (Work.ofMoved moved).Tells text := by
  constructor
  · intro failed
    cases failed with
    | directory failed =>
        cases changed.value_unique failed
        exact ⟨_, rfl, rfl⟩
  · rintro ⟨complaint, said, rfl⟩
    obtain ⟨error | done, left⟩ := moved
    · cases said
      exact .directory changed
    · cases said

theorem Errand.send_fails_iff {launched : Except LaunchError Launched}
    (run : Runs step (Launch.command session.toSurroundings command true) state asked launched middle)
    (text : String) :
    Fails step session state asked (.send command) text ↔
      (Work.ofLaunched surroundings launched).Tells text := by
  constructor
  · intro failed
    cases failed with
    | detached failed =>
        cases run.value_unique failed
        exact ⟨_, rfl, rfl⟩
  · rintro ⟨complaint, said, rfl⟩
    rcases launched with error | ⟨code | job⟩
    · cases said
      exact .detached run
    · exact (unfinished_of_command run).elim
    · cases said

theorem Errand.run_fails_iff {launched : Except LaunchError Launched}
    (run : Runs step (Launch.command session.toSurroundings command false) state asked launched middle)
    (text : String) :
    Fails step session state asked (.run command) text ↔
      (Work.ofLaunched surroundings launched).Tells text := by
  constructor
  · intro failed
    cases failed with
    | attached failed =>
        cases run.value_unique failed
        exact ⟨_, rfl, rfl⟩
    | code failed some =>
        cases run.value_unique failed
        exact ⟨_, codeComplaint_eq_some_iff.2 ⟨some, rfl⟩, rfl⟩
  · rintro ⟨complaint, said, rfl⟩
    rcases launched with error | ⟨code | job⟩
    · cases said
      exact .attached run
    · obtain ⟨some, rfl⟩ := codeComplaint_eq_some_iff.1 said
      exact .code run some
    · cases said

theorem Errand.join_fails_iff {left right : Command} {piped : Except LaunchError Int}
    (run : Runs step (Launch.pipe session.toSurroundings left right) state asked piped middle)
    (text : String) :
    Fails step session state asked (.join left right) text ↔
      (Work.ofPiped surroundings piped).Tells text := by
  constructor
  · intro failed
    cases failed with
    | pipe failed =>
        cases run.value_unique failed
        exact ⟨_, rfl, rfl⟩
    | rightCode failed some =>
        cases run.value_unique failed
        exact ⟨_, codeComplaint_eq_some_iff.2 ⟨some, rfl⟩, rfl⟩
  · rintro ⟨complaint, said, rfl⟩
    cases piped with
    | error error =>
        cases said
        exact .pipe run
    | ok code =>
        obtain ⟨some, rfl⟩ := codeComplaint_eq_some_iff.1 said
        exact .rightCode run some

/-- What goes wrong with an errand is what its work complains of. -/
theorem Errand.fails_iff (worked : Runs step (errand.work session.toSurroundings) state asked work middle)
    (text : String) : Fails step session state asked errand text ↔ work.Tells text := by
  cases errand with
  | exit =>
      obtain ⟨_, rfl, _⟩ := worked.of_pure
      exact iff_of_false nofun nofun
  | complain error =>
      obtain ⟨_, rfl, _⟩ := worked.of_pure
      exact complain_fails_iff error text
  | move argument =>
      obtain ⟨moved, run, rfl⟩ := worked.of_bind_done
      have changed : Runs step (session.changeDirectory (Session.directoryArgument argument)) state asked
          (moved.1, { session with toSurroundings := moved.2.toSurroundings }) middle := by
        rw [changeDirectory_eq]
        exact run.bind_done rfl
      rw [move_fails_iff changed]
      obtain ⟨error | done, left⟩ := moved <;> rfl
  | send command =>
      obtain ⟨launched, run, rfl⟩ := worked.of_bind_done
      exact send_fails_iff run text
  | run command =>
      obtain ⟨launched, run, rfl⟩ := worked.of_bind_done
      exact run_fails_iff run text
  | join left right =>
      obtain ⟨piped, run, rfl⟩ := worked.of_bind_done
      exact join_fails_iff run text

/-- What was sent to the background is a command, and the start of its child is the last call. -/
theorem Errand.of_sent {job : Job}
    (worked : Runs step (errand.work session.toSurroundings) state asked work middle)
    (sent : work.sent = some job) :
    ∃ command, errand = .send command ∧ job.background = true ∧
      Runs step (Launch.command session.toSurroundings command true) state asked (.ok (.started job))
        middle := by
  have some : work.sent ≠ none := by
    rw [sent]
    nofun
  obtain ⟨command, rfl⟩ := ((Errand.work_yields _ _).runs worked).resolve_right some
  obtain ⟨launched, run, rfl⟩ := worked.of_bind_done
  rcases launched with error | ⟨code | other⟩
  · cases sent
  · cases sent
  · obtain rfl := Option.some.inj sent
    exact ⟨command, rfl, (started_of_command run).1, run⟩

theorem Errand.starts_iff (worked : Runs step (errand.work session.toSurroundings) state asked work middle)
    (pid : Pid) : Starts step session state asked errand pid ↔ work.sent = some ⟨pid, true⟩ := by
  constructor
  · rintro ⟨command, last, rfl, started⟩
    obtain ⟨launched, run, rfl⟩ := worked.of_bind_done
    rw [run.value_unique started]
    rfl
  · intro sent
    obtain ⟨command, rfl, _, started⟩ := Errand.of_sent worked sent
    exact ⟨command, middle, rfl, started⟩

/-! ## What is written about jobs -/

theorem toList_started (pid : Pid) : (Notice.started pid).message.toList =
    "Background task ".toList ++ (pid.number.repr.toList ++ " started".toList) := by
  rw [← String.toList_append, ← String.toList_append, ← String.append_assoc]
  rfl

/-- Different children are named by different texts. -/
theorem started_injective {pid other : Pid}
    (same : (Notice.started pid).message = (Notice.started other).message) : pid = other := by
  have named : pid.number.repr = other.number.repr :=
    (String.append_right_inj _).1 ((String.append_left_inj _).1 same)
  rw [Nat.repr_eq_ofList_toDigits, Nat.repr_eq_ofList_toDigits, String.ofList_inj] at named
  apply Pid.ext
  rw [← Nat.ofDigitChars_ten_toDigits (n := pid.number), named, Nat.ofDigitChars_ten_toDigits]

theorem started_no_newline (pid : Pid) :
    ∀ c ∈ (Notice.started pid).message.toList, (c == '\n') = false := by
  have label : ("Background task ".toList.all fun c => c != '\n') = true := by decide
  have last : (" started".toList.all fun c => c != '\n') = true := by decide
  rw [toList_started]
  exact List.forall_mem_append.2 ⟨no_newline_of_all label,
    List.forall_mem_append.2 ⟨repr_no_newline pid.number, no_newline_of_all last⟩⟩

/-- A start is not taken for an end: the number of a child does not begin with a letter. -/
theorem started_not_prefixed (pid : Pid) (rest : List Char) :
    ¬ "Background task terminated".toList <+: (Notice.started pid).message.toList ++ rest := by
  intro begins
  obtain ⟨digit, digits, written⟩ :=
    List.exists_cons_of_ne_nil (Nat.toDigits_ne_nil (b := 10) (n := pid.number))
  have isDigit : digit.isDigit = true := by
    refine Nat.isDigit_of_mem_toDigits (b := 10) (n := pid.number) (by decide) (by decide) ?_
    rw [written]
    exact List.mem_cons_self
  have named : pid.number.repr.toList = digit :: digits := by
    rw [Nat.repr_eq_ofList_toDigits, written, String.toList_ofList]
  have split : "Background task terminated".toList =
      "Background task ".toList ++ "terminated".toList := by
    decide +kernel
  rw [toList_started, named, split, List.append_assoc, List.prefix_append_right_inj] at begins
  obtain ⟨_, more⟩ := begins
  obtain rfl : 't' = digit := (List.cons.inj more).1
  cases isDigit

/-- The two kinds of lines are told apart in the output. -/
theorem withoutTerminations_of_started (pid : Pid) :
    withoutTerminations ((Notice.started pid).message ++ "\n") ≠ [] := by
  have cut : cutAfter (· == '\n') ((Notice.started pid).message.toList ++ ['\n']) =
      [(Notice.started pid).message.toList ++ ['\n']] :=
    cutAfter_append (started_no_newline pid) (beq_self_eq_true '\n')
  have other : "Background task terminated".toList.isPrefixOf
      ((Notice.started pid).message.toList ++ ['\n']) = false := by
    rw [← Bool.not_eq_true, List.isPrefixOf_iff_prefix]
    exact started_not_prefixed pid ['\n']
  rw [withoutTerminations, String.toList_append, show "\n".toList = ['\n'] from rfl, cut,
    List.filter_cons, other]
  exact List.cons_ne_nil _ _

/-! ## Every line -/

/-- What a line writes, and what becomes of the registry.  The calls that were made for the line itself
are those of the foreground. -/
structure Session.Reports (step : (call : Request) → σ → call.Answer → σ → Prop) (session : Session)
    (line : String) (errand : Errand) (state : σ) (trace : Shell.Trace) (outcome : Outcome) : Prop where
  reads : Errand.Reads (textOf line) errand
  /-- The errand was worked on, and its work has made these calls. -/
  worked : ∃ work middle,
    Runs step (errand.work session.toSurroundings) state (foreground trace) work middle
  flow : outcome.flow = .exit ↔ words line = ["exit"]
  /-- What went wrong is said once, and nothing else is said. -/
  errors : (∃ text, errand.Fails step session state (foreground trace) text ∧
      outcome.errors = text ++ "\n") ∨
    (∀ text, ¬ errand.Fails step session state (foreground trace) text) ∧ outcome.errors = ""
  /-- There is never a choice of what to say. -/
  single : ∀ text other, errand.Fails step session state (foreground trace) text →
    errand.Fails step session state (foreground trace) other → text = other
  attached : ∀ command code final, errand = .run command →
    Runs step (Launch.command session.toSurroundings command false) state (foreground trace)
      (.ok (.finished code)) final →
    ∃ image program, image.Carries session.toSurroundings command (some program) ∧
      LeftWith ⟨image, none⟩ code (foreground trace)
  /-- The code of a pipe is the one of its right stage. -/
  joined : ∀ left right code final, errand = .join left right →
    Runs step (Launch.pipe session.toSurroundings left right) state (foreground trace) (.ok code) final →
    ∃ image program ends, image.Carries session.toSurroundings right program ∧
      LeftWith (Launch.rightChild image ends) code (foreground trace)
  started : ∀ pid, outcome.output = "Background task " ++ toString pid ++ " started\n" ↔
    errand.Starts step session state (foreground trace) pid
  /-- The child that is named is the one that this line has put behind the jobs. -/
  pushed : ∀ pid, errand.Starts step session state (foreground trace) pid →
    outcome.session.jobs = session.jobs ++ [⟨pid, true⟩] ∧
      ∃ before command image program, errand = .send command ∧
        image.Carries session.toSurroundings command (some program) ∧
          trace = before ++ [⟨.fork ⟨image, none⟩, .ok pid⟩]
  /-- Otherwise the output tells of jobs that are gone, and no job is added. -/
  terminated : (∀ pid, ¬ errand.Starts step session state (foreground trace) pid) →
    outcome.session.jobs.Sublist session.jobs ∧ ∃ codes : List Int, (∀ code ∈ codes, 0 < code) ∧
      outcome.output = String.join (codes.map fun code =>
        "Background task terminated with exit code " ++ toString code ++ "\n")
  grows : session.jobs.length < outcome.session.jobs.length →
    outcome.session.jobs.length = session.jobs.length + 1 ∧
      ∃ pid, errand.Starts step session state (foreground trace) pid
  piped : ∀ left right, errand = .join left right → outcome.session.jobs.Sublist session.jobs

variable {line : String} {outcome : Session.Outcome} {late : Shell.Trace}

theorem started_output (pid : Pid) : (Notice.started pid).message ++ "\n" =
    "Background task " ++ toString pid ++ " started\n" :=
  String.append_assoc

/-- Either a job is put behind the others and named, or jobs that are gone are taken out. -/
theorem Concluded.registry
    (worked : Runs step (errand.work session.toSurroundings) state asked work middle)
    (concluded : Concluded step session errand work middle late outcome final) :
    (∃ pid, work.sent = some ⟨pid, true⟩ ∧ late = [] ∧
      outcome.session.jobs = session.jobs ++ [⟨pid, true⟩] ∧
        outcome.output = (Notice.started pid).message ++ "\n") ∨
    work.sent = none ∧ outcome.session.jobs.Sublist session.jobs ∧
      ∃ collected, outcome.notices = Session.collectionNotices collected := by
  cases sent : work.sent with
  | some job =>
      obtain ⟨command, rfl, background, _⟩ := Errand.of_sent worked sent
      obtain ⟨rfl, _, jobs, told⟩ := concluded.registered rfl
      obtain ⟨pid, _⟩ := job
      cases background
      rw [sent] at jobs told
      exact .inl ⟨pid, rfl, rfl, jobs, by rw [Session.Outcome.output, told]; exact String.empty_append⟩
  | none =>
      refine .inr ⟨rfl, ?_⟩
      cases collects : errand.collects with
      | true =>
          obtain ⟨collected, drains, told⟩ := concluded.collected collects
          exact ⟨(Registry.drains drains).order, collected, told⟩
      | false =>
          obtain ⟨_, _, jobs, told⟩ := concluded.registered collects
          rw [sent, Option.toList_none, List.append_nil] at jobs
          rw [sent] at told
          exact ⟨jobs ▸ List.Sublist.refl _, [], told⟩

theorem Concluded.output_started_iff
    (worked : Runs step (errand.work session.toSurroundings) state asked work middle)
    (concluded : Concluded step session errand work middle late outcome final) (pid : Pid) :
    outcome.output = (Notice.started pid).message ++ "\n" ↔ work.sent = some ⟨pid, true⟩ := by
  rcases concluded.registry worked with ⟨other, sent, _, _, output⟩ | ⟨unsent, _, collected, told⟩
  · rw [output, sent]
    constructor
    · intro same
      rw [started_injective ((String.append_left_inj _).1 same)]
    · rintro ⟨⟩
      rfl
  · refine iff_of_false (fun output => ?_) (by rw [unsent]; nofun)
    have silent := withoutTerminations_of_notices told
    rw [output] at silent
    exact withoutTerminations_of_started pid silent

/-- What the work complains of is written, and nothing else. -/
theorem Concluded.errors (concluded : Concluded step session errand work middle late outcome final) :
    (∃ text, work.Tells text ∧ outcome.errors = text ++ "\n") ∨
      (∀ text, ¬ work.Tells text) ∧ outcome.errors = "" := by
  unfold Session.Outcome.errors Work.Tells
  rw [concluded.complaint]
  cases work.complaint with
  | none => exact .inr ⟨nofun, rfl⟩
  | some complaint => exact .inl ⟨complaint.message, ⟨complaint, rfl, rfl⟩, rfl⟩

theorem output_of_collected {collected : List Collected}
    (told : outcome.notices = Session.collectionNotices collected) :
    ∃ codes : List Int, (∀ code ∈ codes, 0 < code) ∧
      outcome.output = String.join (codes.map fun code =>
        "Background task terminated with exit code " ++ toString code ++ "\n") := by
  refine ⟨(collected.filter fun child => 0 < child.code).map Collected.code, fun code mem => ?_, ?_⟩
  · obtain ⟨child, kept, rfl⟩ := List.mem_map.1 mem
    simpa using (List.mem_filter.1 kept).2
  · rw [Session.Outcome.output, told, Session.collectionNotices, List.map_map, List.map_map]
    rfl

/-- A line writes what its errand and its calls make it write, and nothing else. -/
theorem Session.runLine_reports
    (run : Runs step (session.runLine line) state trace outcome final) :
    session.Reports step line (Errand.ofLine line) state trace outcome := by
  obtain ⟨early, late, middle, work, rfl, worked, concluded⟩ := run.of_runLine
  have fails := Errand.fails_iff worked
  have starts := Errand.starts_iff worked
  have registry := concluded.registry worked
  have made : foreground (early ++ late) = early := concluded.foreground_eq worked
  rw [← made] at fails starts
  exact {
    reads := Errand.reads _
    worked := ⟨work, middle, made.symm ▸ worked⟩
    flow := by
      rw [concluded.flow, flow_eq_exit_iff, words_eq_singleton_iff Builtin.clean_exit, Leaves]
    errors := by
      rcases concluded.errors with ⟨text, tells, errors⟩ | ⟨silent, errors⟩
      · exact .inl ⟨text, (fails text).2 tells, errors⟩
      · exact .inr ⟨fun text failed => silent text ((fails text).1 failed), errors⟩
    single := fun text other failed also =>
      ((fails text).1 failed).unique ((fails other).1 also)
    attached := fun _ _ _ _ => left_with_of_command
    joined := fun _ _ _ _ _ => left_with_of_pipe
    started := by
      intro pid
      rw [starts, ← started_output]
      exact concluded.output_started_iff worked pid
    pushed := by
      intro pid started
      have sent := (starts pid).1 started
      obtain ⟨command, sends, _, launched⟩ := Errand.of_sent worked sent
      obtain ⟨_, before, image, program, carries, calls⟩ := started_of_command launched
      rcases registry with ⟨other, same, rfl, jobs, _⟩ | ⟨unsent, _⟩
      · cases sent.symm.trans same
        refine ⟨jobs, before, command, image, program, sends, carries, ?_⟩
        rw [List.append_nil, calls]
      · cases sent.symm.trans unsent
    terminated := by
      intro unstarted
      rcases registry with ⟨pid, sent, _⟩ | ⟨_, order, collected, told⟩
      · exact absurd ((starts pid).2 sent) (unstarted pid)
      · exact ⟨order, output_of_collected told⟩
    grows := by
      intro longer
      rcases registry with ⟨pid, sent, _, jobs, _⟩ | ⟨_, order, _⟩
      · exact ⟨by rw [jobs]; simp, pid, (starts pid).2 sent⟩
      · exact absurd order.length_le (Nat.not_le.2 longer)
    piped := by
      intro left right joins
      rcases registry with ⟨pid, sent, _⟩ | ⟨_, order, _⟩
      · obtain ⟨command, sends, _⟩ := Errand.of_sent worked sent
        rw [joins] at sends
        cases sends
      · exact order }

end

/-- The same answers as of a busy system, but not every path is there. -/
def Request.sparsely (present : Path → Bool) (told : Pid → WaitStatus) :
    (call : Request) → Unit → Option (call.Answer × Unit)
  | .pathExists path, _ => some (present path, ())
  | call, state => busily told call state

/-- The system that answers so. -/
def Request.Sparsely (present : Path → Bool) (told : Pid → WaitStatus) (call : Request) (before : Unit)
    (answer : call.Answer) (after : Unit) : Prop :=
  sparsely present told call before = some (answer, after)

/-- Three lines of one session with two jobs, of which one is gone: the right stage of a pipe has failed,
a command is started in the background, and a name is not known. -/
theorem Session.runLine_reports_each :
    let told : Pid → WaitStatus := fun pid => if pid = 7 then .exited 5 else .stillAlive
    let step := Request.Sparsely (fun path => path ≠ Path.ofText "/absent") told
    let session : Session := ⟨⟨Path.ofText "/", []⟩, [⟨7, true⟩, ⟨8, true⟩]⟩
    (∃ trace outcome, Runs step (session.runLine "b | c &") () trace outcome () ∧
      session.Reports step "b | c &" (Errand.ofLine "b | c &") () trace outcome ∧
      outcome.errors = "Program terminated with exit code 3\n" ∧
      outcome.output = "Background task terminated with exit code 5\n" ∧
      outcome.session.jobs = [⟨8, true⟩]) ∧
    (∃ trace outcome, Runs step (session.runLine "b &") () trace outcome () ∧
      session.Reports step "b &" (Errand.ofLine "b &") () trace outcome ∧
      (Errand.ofLine "b &").Starts step session () (foreground trace) 1 ∧ outcome.errors = "" ∧
      outcome.output = "Background task 1 started\n" ∧
      outcome.session.jobs = [⟨7, true⟩, ⟨8, true⟩, ⟨1, true⟩]) ∧
    ∃ trace outcome, Runs step (session.runLine "absent x") () trace outcome () ∧
      session.Reports step "absent x" (Errand.ofLine "absent x") () trace outcome ∧
      (Errand.ofLine "absent x").Fails step session () (foreground trace) "absent: command not found" ∧
      startedChildren trace = [] ∧ outcome.errors = "absent: command not found\n" ∧
      outcome.output = "Background task terminated with exit code 5\n" ∧
      outcome.session.jobs = [⟨8, true⟩] := by
  intro told step session
  let perform := Request.sparsely (fun path => path ≠ Path.ofText "/absent") told
  have performs : ∀ call state answer after, perform call state = some (answer, after) →
      step call state answer after :=
    fun _ _ _ _ performed => performed
  refine ⟨?pipe, ?background, ?unknown⟩
  case pipe =>
    have ran : (session.runLine "b | c &").runWith perform 1 () = some
        (⟨⟨session.toSurroundings, [⟨8, true⟩]⟩, .proceed, [.terminated 5], some (.exitCode 3)⟩, ()) := by
      decide +kernel
    obtain ⟨trace, run⟩ := runs_of_runWith performs ran
    exact ⟨trace, _, run, Session.runLine_reports run, by decide +kernel, by decide +kernel, rfl⟩
  case background =>
    have ran : (session.runLine "b &").runWith perform 1 () = some
        (⟨session.register ⟨1, true⟩, .proceed, [.started 1], none⟩, ()) := by
      decide +kernel
    obtain ⟨trace, run⟩ := runs_of_runWith performs ran
    have reports := Session.runLine_reports run
    exact ⟨trace, _, run, reports, (reports.started 1).1 rfl, rfl, rfl, rfl⟩
  case unknown =>
    have ran : ((session.runLine "absent x").runWith (record perform) 1 ((), [])).map
        (fun last => (last.1, startedChildren last.2.2)) = some
          (⟨⟨session.toSurroundings, [⟨8, true⟩]⟩, .proceed, [.terminated 5],
            some (.launch (.notFound ⟨"absent"⟩))⟩, []) := by
      decide +kernel
    obtain ⟨⟨outcome, ⟨⟩, trace⟩, executed, summary⟩ := Option.map_eq_some_iff.1 ran
    obtain ⟨rfl, nobody⟩ := Prod.mk.inj summary
    have run := runs_of_record performs executed
    have reports := Session.runLine_reports run
    refine ⟨trace, _, run, reports, ?_, nobody, by decide +kernel, by decide +kernel, rfl⟩
    rcases reports.errors with ⟨text, fails, said⟩ | ⟨_, silent⟩
    · obtain rfl : "absent: command not found" = text := (String.append_left_inj "\n").1 said
      exact fails
    · exact absurd silent (by decide +kernel)

end LineShell
