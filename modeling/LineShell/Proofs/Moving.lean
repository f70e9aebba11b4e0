/-
# LineShell.Proofs.Moving -- the directory and the environment over whole sessions

The directory of a session is kept twice: as the directory itself, and as the value of
`PWD` in the environment, where the name may occur more than once or not at all.  Both
change together, and only when a `cd` goes well (`runLine_moves`).

A `Course` is what a session goes through, line after line.  Nothing ties the system
that answers to one line to the system that answered to the line before, so the files
may be others each time.

`Session.Course.surroundings_kept` says what a whole course keeps.  The environment has the same
variables in the same order, with at most one more at the end, and only one of them,
the first `PWD`, can have another value (`Environment.Updated`).  All other lines leave
the directory and the environment alone, and once a `cd` has gone well the value of
`PWD` is the directory.
-/
import LineShell.Proofs.Asking
import LineShell.Proofs.Assigning
import LineShell.Proofs.Tending

namespace LineShell

set_option autoImplicit false

open Program

/-! ## One variable of an environment -/

namespace Environment

variable {before after : Environment} {name : Bytes}

/-- An environment in which one variable may have been given other values. -/
inductive Updated (name : Bytes) (before : Environment) : Environment → Prop where
  | same : Updated name before before
  /-- The first variable with the name has another value. -/
  | replaced {front back : Environment} {old : Bytes} (value : Bytes) :
      before = front ++ ⟨name, old⟩ :: back → (∀ other ∈ front, other.name ≠ name) →
      Updated name before (front ++ ⟨name, value⟩ :: back)
  /-- There was no variable with the name. -/
  | appended (value : Bytes) : (∀ other ∈ before, other.name ≠ name) →
      Updated name before (before ++ [⟨name, value⟩])

/-- Every further value goes to the same place. -/
theorem Updated.assign (updated : Updated name before after) (value : Bytes) :
    Updated name before (after.assign name value) := by
  cases updated with
  | same =>
      rcases before.split_at name with absent | ⟨front, old, back, rfl, absent⟩
      · rw [assign_of_absent value absent]
        exact .appended value absent
      · rw [assign_of_front old value absent]
        exact .replaced value rfl absent
  | replaced given there absent =>
      rw [assign_of_front given value absent]
      exact .replaced value there absent
  | appended given absent =>
      rw [assign_of_front given value absent]
      exact .appended value absent

end Environment

/-! ## One line -/

section

variable {session : Session} {line : String}

theorem runLine_of_builtin {builtin : Builtin}
    (recognised : Builtin.ofLine? (Session.textOf line) = some builtin) :
    session.runLine line = session.runBuiltin builtin := by
  unfold Session.textOf at recognised
  unfold Session.runLine
  simp only [recognised]

theorem runLine_of_command (other : Builtin.ofLine? (Session.textOf line) = none) :
    session.runLine line = session.runCommandLine (Session.textOf line) := by
  unfold Session.textOf at other ⊢
  unfold Session.runLine
  simp only [other]

end

/-- The line is a `cd` that has gone well. -/
def Session.Moves (line : String) (outcome : Session.Outcome) : Prop :=
  (∃ argument, Builtin.ofLine? (textOf line) = some (.changeDirectory argument)) ∧
    outcome.complaint = none

section Lines

variable {σ : Type} {step : (call : Request) → σ → call.Answer → σ → Prop} {state final : σ}
variable {trace : Shell.Trace} {session : Session} {outcome : Session.Outcome}

/-- The ends of a `cd`, with the calls that lead there and the session that is left. -/
inductive Session.Attempt (session : Session) (argument : Option String) :
    Shell.Trace → Except DirectoryError Unit × Session → Prop where
  | homeless : session.directoryTarget? argument = none →
      Attempt session argument [] (.error .noHome, session)
  | lost {target : Path} {errno : Errno} : session.directoryTarget? argument = some target →
      Attempt session argument [⟨.canonicalize (session.directory.join target), .error errno⟩]
        (.error (.notFound target), session)
  | blocked {target resolved : Path} : session.directoryTarget? argument = some target →
      Attempt session argument
        [⟨.canonicalize (session.directory.join target), .ok resolved⟩, ⟨.isDirectory resolved, false⟩]
        (.error (.notADirectory target), session)
  | through {target resolved : Path} : session.directoryTarget? argument = some target →
      Attempt session argument
        [⟨.canonicalize (session.directory.join target), .ok resolved⟩, ⟨.isDirectory resolved, true⟩]
        (.ok (), session.moveTo resolved)

theorem Program.Runs.attempt {argument : Option String}
    {result : Except DirectoryError Unit × Session}
    (run : Runs step (session.changeDirectory argument) state trace result final) :
    session.Attempt argument trace result := by
  unfold Session.changeDirectory at run
  split at run
  · next nowhere =>
      obtain ⟨rfl, rfl, _⟩ := run.of_pure
      exact .homeless nowhere
  · next target heads =>
      obtain ⟨found, _, _, rfl, _, afterFound⟩ := runs_request_bind.1 run
      cases found with
      | error errno =>
          obtain ⟨rfl, rfl, _⟩ := afterFound.of_pure
          exact .lost heads
      | ok resolved =>
          obtain ⟨isOne, _, _, rfl, _, last⟩ := runs_request_bind.1 afterFound
          cases isOne with
          | false =>
              obtain ⟨rfl, rfl, _⟩ := last.of_pure
              exact .blocked heads
          | true =>
              obtain ⟨rfl, rfl, _⟩ := last.of_pure
              exact .through heads

/-- The directory is changed to one that the system has found, or nothing is changed. -/
theorem Program.Runs.of_changeDirectory {target : Option String}
    {result : Except DirectoryError Unit × Session}
    (run : Runs step (session.changeDirectory target) state trace result final) :
    (∃ error, result = (.error error, session)) ∨
      ∃ path directory, ⟨.canonicalize path, .ok directory⟩ ∈ trace ∧
        result = (.ok (), session.moveTo directory) := by
  cases run.attempt with
  | homeless _ => exact .inl ⟨_, rfl⟩
  | lost _ => exact .inl ⟨_, rfl⟩
  | blocked _ => exact .inl ⟨_, rfl⟩
  | through _ => exact .inr ⟨_, _, List.mem_cons_self, rfl⟩

/-- Whatever the answers are, the program leaves the directory and the environment alone. -/
def Stays (session : Session) (program : Shell Session.Outcome) : Prop :=
  program.Yields fun outcome => outcome.session.toSurroundings = session.toSurroundings

theorem reapAndReturn_stays (session : Session) (flow : Flow) (complaint : Option Complaint) :
    Stays session (session.reapAndReturn flow complaint) := by
  unfold Stays Session.reapAndReturn Session.reap
  rw [yields_bind, yields_bind]
  exact yields_of_forall (fun drained => rfl) _

theorem execute_yields (session : Session) (command : Command) (background : Bool) :
    (session.execute command background).Yields fun result =>
      result.2.toSurroundings = session.toSurroundings := by
  unfold Session.execute
  rw [yields_bind]
  refine yields_of_forall (fun launched => ?_) _
  rcases launched with error | ⟨code | job⟩ <;> rfl

theorem reaping_stays {moved : Session} (same : moved.toSurroundings = session.toSurroundings)
    (flow : Flow) (complaint : Option Complaint) :
    Stays session (moved.reapAndReturn flow complaint) :=
  (reapAndReturn_stays moved flow complaint).imp fun _ kept => kept.trans same

theorem runAttached_stays (session : Session) (command : Command) :
    Stays session (session.runAttached command) := by
  unfold Stays Session.runAttached
  rw [yields_bind]
  refine (execute_yields session command false).imp fun result same => ?_
  obtain ⟨error | ⟨code | job⟩, moved⟩ := result
  · exact reaping_stays same _ _
  · exact reaping_stays same _ _
  · exact same

theorem runDetached_stays (session : Session) (command : Command) :
    Stays session (session.runDetached command) := by
  unfold Stays Session.runDetached
  rw [yields_bind]
  refine (execute_yields session command true).imp fun result same => ?_
  obtain ⟨error | ⟨code | job⟩, moved⟩ := result <;> exact same

theorem runPipe_stays (session : Session) (left right : Command) :
    Stays session (session.runPipe left right) := by
  unfold Stays Session.runPipe
  rw [yields_bind]
  refine yields_of_forall (fun result => ?_) _
  cases result with
  | ok code => exact reapAndReturn_stays session _ _
  | error error => exact reapAndReturn_stays session _ _

theorem runCommandLine_stays (session : Session) (text : String) :
    Stays session (session.runCommandLine text) := by
  unfold Session.runCommandLine
  generalize Marked.ofLine text = marked
  simp only
  split
  · exact reapAndReturn_stays session _ _
  · split
    · exact runDetached_stays session _
    · exact runAttached_stays session _
  · exact runPipe_stays session _ _

theorem Stays.runs {program : Shell Session.Outcome} (stays : Stays session program)
    (run : Runs step program state trace outcome final) :
    outcome.session.toSurroundings = session.toSurroundings := by
  have yields : program.Yields fun outcome =>
    outcome.session.toSurroundings = session.toSurroundings := stays
  exact yields.runs run

-- A line is not known where this is used, and evaluating its parser then never ends.
attribute [irreducible] Stays

/-- What a line does to the directory and the environment. -/
inductive Moving (session : Session) (line : String) (trace : Shell.Trace)
    (outcome : Session.Outcome) : Prop where
  | stays : ¬ Session.Moves line outcome →
      outcome.session.toSurroundings = session.toSurroundings → Moving session line trace outcome
  | moves {path directory : Path} : Session.Moves line outcome →
      ⟨.canonicalize path, .ok directory⟩ ∈ trace → outcome.session = session.moveTo directory →
      Moving session line trace outcome

theorem runLine_moves (line : String)
    (run : Runs step (session.runLine line) state trace outcome final) :
    Moving session line trace outcome := by
  have unmoved (other : ∀ argument,
      Builtin.ofLine? (Session.textOf line) ≠ some (.changeDirectory argument)) :
      ¬ Session.Moves line outcome :=
    fun moves => moves.1.elim other
  cases recognised : Builtin.ofLine? (Session.textOf line) with
  | none =>
      rw [runLine_of_command recognised] at run
      refine .stays (unmoved fun argument same => ?_) ?_
      · rw [recognised] at same
        cases same
      · exact (runCommandLine_stays session (Session.textOf line)).runs run
  | some builtin =>
      rw [runLine_of_builtin recognised] at run
      cases builtin with
      | exit =>
          refine .stays (unmoved fun argument same => ?_) ?_
          · rw [recognised] at same
            cases same
          · exact (reapAndReturn_stays session .exit none).runs run
      | changeDirectory argument =>
          obtain ⟨early, late, _, result, rfl, changed, last⟩ := Runs.of_bind run
          rcases changed.of_changeDirectory with ⟨error, rfl⟩ | ⟨path, directory, found, rfl⟩
          · obtain ⟨_, rfl, _⟩ := last.of_pure
            exact .stays (fun moves => by cases moves.2) rfl
          · obtain ⟨_, rfl, _⟩ := last.of_pure
            exact .moves ⟨⟨argument, recognised⟩, rfl⟩ (List.mem_append_left late found) rfl

end Lines

/-! ## Whole sessions -/

/-- A line of a course: the session that runs it, its calls with their answers, and its outcome. -/
structure Stretch where
  session : Session
  line : String
  trace : Shell.Trace
  outcome : Session.Outcome

/-- A session runs line after line; each line may find the system in any state. -/
inductive Session.Course {σ : Type} (step : (call : Request) → σ → call.Answer → σ → Prop)
    (first : Session) : List Stretch → Session → Prop where
  | start : Course step first [] first
  | line {history : List Stretch} {session : Session} {line : String} {state final : σ}
      {trace : Shell.Trace} {outcome : Session.Outcome} :
      Course step first history session → Runs step (session.runLine line) state trace outcome final →
      Course step first (history ++ [⟨session, line, trace, outcome⟩]) outcome.session

/-- What a course keeps of the directory and the environment. -/
structure Kept (first : Session) (history : List Stretch) (last : Session) : Prop where
  /-- The environment differs by the value of one variable, or by one variable at the end. -/
  environment : Environment.Updated Session.directoryName first.environment last.environment
  values : ∀ name, name ≠ Session.directoryName →
    last.environment.value? name = first.environment.value? name
  /-- Nothing but a `cd` that goes well changes the directory or the environment. -/
  unmoved : ∀ stretch ∈ history, ¬ Session.Moves stretch.line stretch.outcome →
    stretch.outcome.session.toSurroundings = stretch.session.toSurroundings
  /-- After a `cd` that went well the environment names the directory. -/
  current : (∃ stretch ∈ history, Session.Moves stretch.line stretch.outcome) →
    last.environment.value? Session.directoryName = some last.directory.bytes

section Courses

variable {first session : Session} {history : List Stretch} {line : String} {trace : Shell.Trace}
variable {outcome : Session.Outcome}

theorem Kept.start (first : Session) : Kept first [] first where
  environment := .same
  values := fun _ _ => rfl
  unmoved := nofun
  current := by
    rintro ⟨stretch, mem, _⟩
    exact absurd mem List.not_mem_nil

/-- A line that stays keeps everything. -/
theorem Kept.stays (kept : Kept first history session) (still : ¬ Session.Moves line outcome)
    (same : outcome.session.toSurroundings = session.toSurroundings) :
    Kept first (history ++ [⟨session, line, trace, outcome⟩]) outcome.session where
  environment := by
    rw [same]
    exact kept.environment
  values := by
    intro name other
    rw [same]
    exact kept.values name other
  unmoved := by
    intro stretch mem unmoved
    rcases List.mem_append.1 mem with old | new
    · exact kept.unmoved stretch old unmoved
    · obtain rfl := List.mem_singleton.1 new
      exact same
  current := by
    rintro ⟨stretch, mem, moves⟩
    rw [same]
    rcases List.mem_append.1 mem with old | new
    · exact kept.current ⟨stretch, old, moves⟩
    · obtain rfl := List.mem_singleton.1 new
      exact absurd moves still

/-- A line that moves writes the same directory to both places. -/
theorem Kept.moves (kept : Kept first history session) {directory : Path}
    (moves : Session.Moves line outcome) (moved : outcome.session = session.moveTo directory) :
    Kept first (history ++ [⟨session, line, trace, outcome⟩]) outcome.session where
  environment := by
    rw [moved]
    exact kept.environment.assign directory.bytes
  values := by
    intro name other
    rw [moved, ← kept.values name other]
    exact Environment.value?_assign_of_ne session.environment directory.bytes other
  unmoved := by
    intro stretch mem unmoved
    rcases List.mem_append.1 mem with old | new
    · exact kept.unmoved stretch old unmoved
    · obtain rfl := List.mem_singleton.1 new
      exact absurd moves unmoved
  current := by
    intro _
    rw [moved]
    exact Environment.value?_assign_self session.environment Session.directoryName directory.bytes

/-- Over any lines and any files, only a `cd` that goes well changes the directory and the
environment, and then it writes the directory to `PWD`, in its first place. -/
theorem Session.Course.surroundings_kept {σ : Type}
    {step : (call : Request) → σ → call.Answer → σ → Prop}
    (course : Course step first history session) : Kept first history session := by
  induction course with
  | start => exact .start first
  | @line history session line state final trace outcome _ run ih =>
      cases runLine_moves line run with
      | stays still same => exact ih.stays still same
      | moves moves _ moved => exact ih.moves moves moved

end Courses

/-! ## A course with two values for one name -/

/-- Answers under which some files are there, every absolute path is a directory, and every child
leaves at once. -/
def Request.plainly (present : Path → Bool) : (call : Request) → Unit → Option (call.Answer × Unit)
  | .pathExists path, _ => some (present path, ())
  | .canonicalize path, _ => some (if path.isAbsolute then .ok path else .error .ENOENT, ())
  | .isDirectory _, _ => some (true, ())
  | .pipe, _ => some (.ok ⟨3, 4⟩, ())
  | .close _, _ => some ((), ())
  | .fork _, _ => some (.ok 1, ())
  | .wait _, _ => some (.ok (.exited 0), ())
  | .poll _, _ => some (.ok (.exited 0), ())

/-- The system that answers so. -/
def Request.Plainly (present : Path → Bool) (call : Request) (before : Unit) (answer : call.Answer)
    (after : Unit) : Prop :=
  plainly present call before = some (answer, after)

/-- Run lines one after another in that system. -/
def Session.through (present : Path → Bool) (session : Session) : List String → Option Session
  | [] => some session
  | line :: rest =>
      match (session.runLine line).runWith (Request.plainly present) 1 () with
      | none => none
      | some (outcome, _) => outcome.session.through present rest

theorem Session.Course.of_through {present : Path → Bool} {first last : Session}
    {lines : List String} : ∀ {history : List Stretch} {session : Session},
      Course (Request.Plainly present) first history session →
      session.through present lines = some last →
      ∃ more, more.map Stretch.line = lines ∧
        Course (Request.Plainly present) first (history ++ more) last := by
  induction lines with
  | nil =>
      intro history session course ran
      obtain rfl := Option.some.inj ran
      exact ⟨[], rfl, by rwa [List.append_nil]⟩
  | cons line rest ih =>
      intro history session course ran
      rw [Session.through] at ran
      split at ran
      · cases ran
      · next outcome state executed =>
          obtain ⟨trace, run⟩ := runs_of_runWith (fun _ _ _ _ performs => performs) executed
          obtain ⟨more, lines, course⟩ := ih (course.line run) ran
          refine ⟨⟨session, line, trace, outcome⟩ :: more, ?_, ?_⟩
          · rw [List.map_cons, lines]
          · rwa [List.append_assoc, List.singleton_append] at course

/-- The first of two values is changed, and a `cd` that fails afterwards changes nothing. -/
theorem Session.Course.surroundings_kept_twice :
    ∃ history session,
      Course (Request.Plainly fun _ => true)
        ⟨⟨Path.ofText "/old", [⟨Bytes.ofText "A", []⟩, ⟨directoryName, Bytes.ofText "/old"⟩,
          ⟨directoryName, []⟩]⟩, []⟩ history session ∧
      history.map Stretch.line = ["cd /new", "cd", "ls"] ∧
      session.environment = [⟨Bytes.ofText "A", []⟩, ⟨directoryName, Bytes.ofText "/new"⟩,
        ⟨directoryName, []⟩] ∧
      Kept ⟨⟨Path.ofText "/old", [⟨Bytes.ofText "A", []⟩, ⟨directoryName, Bytes.ofText "/old"⟩,
        ⟨directoryName, []⟩]⟩, []⟩ history session := by
  have ran : (Session.through (fun _ => true)
      ⟨⟨Path.ofText "/old", [⟨Bytes.ofText "A", []⟩, ⟨directoryName, Bytes.ofText "/old"⟩,
        ⟨directoryName, []⟩]⟩, []⟩ ["cd /new", "cd", "ls"]).map (fun last => last.environment) =
      some [⟨Bytes.ofText "A", []⟩, ⟨directoryName, Bytes.ofText "/new"⟩, ⟨directoryName, []⟩] := by
    decide +kernel
  obtain ⟨session, ran, environment⟩ := Option.map_eq_some_iff.1 ran
  obtain ⟨history, lines, course⟩ := Course.of_through .start ran
  exact ⟨history, session, course, lines, environment, Session.Course.surroundings_kept course⟩

end LineShell
