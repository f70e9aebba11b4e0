/-
# LineShell.Proofs.Grounding -- the file that was found is the file that is executed

The shell tests a path, and later a child executes it after it has entered the
session's directory.  The two are the same file only if the path means the same in
both places, so it has to be absolute: then it does not matter from where it is seen.

An absolute directory makes every candidate absolute (`isAbsolute_of_candidate`),
whatever the search path is made of.  Changing the directory keeps it absolute when the
system resolves paths to absolute ones, which is all that is assumed of it.

`Session.Course.grounded` states this over whole sessions, for every child at the
moment at which it is started: the path that it will execute is absolute, was tested
and found by the line that starts it, and is executed in the session's directory
(`Grounded`).
-/
import LineShell.Proofs.Entering
import LineShell.Proofs.Moving
import LineShell.Proofs.Preparing

namespace LineShell

set_option autoImplicit false

open Program

/-! ## The steps of a child -/

/-- A system that may answer anything to a child. -/
def Entry.Anything (call : Entry.Call) (_ : Unit) (_ : call.Answer) (_ : Unit) : Prop :=
  True

/-- The call hands the child over to a program. -/
def Entry.Call.IsExecute : Entry.Call → Prop
  | .execute _ _ _ => True
  | _ => False

/-- The call executes no other program than the image's. -/
def Image.Executes (image : Image) (call : Entry.Call) : Prop :=
  ∀ program arguments environment, call = .execute program arguments environment →
    image.program = some program

/-- The child has entered the directory of its image. -/
def Image.Entered (image : Image) (state : Unit × List (Event Entry.Call Entry.Call.Answer)) : Prop :=
  ⟨.enterDirectory image.context.directory, .ok ()⟩ ∈ state.2

/-- The image's program may be executed after the directory was entered. -/
def Image.Permits (image : Image) (call : Entry.Call)
    (state : Unit × List (Event Entry.Call Entry.Call.Answer)) : Prop :=
  ∀ program arguments environment, call = .execute program arguments environment →
    image.program = some program ∧ image.Entered state

section Child

variable {image : Image} {state : Unit × List (Event Entry.Call Entry.Call.Answer)}

theorem rebind_asks (file : NulFree) (access : Entry.Access) (stream : Descriptor) :
    Asks (fun call => ¬ call.IsExecute) (Entry.rebind file access stream) := by
  unfold Entry.rebind
  refine .bind (asks_request not_false) fun opened => ?_
  split
  · exact asks_pure _
  · split
    · exact asks_pure _
    · refine .bind (asks_request not_false) fun duplicated => ?_
      split
      · exact asks_pure _
      · exact asks_request not_false

theorem wire_asks (wiring : Entry.Wiring) :
    Asks (fun call => ¬ call.IsExecute) (Entry.wire wiring) := by
  unfold Entry.wire
  refine .bind (asks_request not_false) fun closed => ?_
  split
  · exact asks_pure _
  · refine .bind (asks_request not_false) fun duplicated => ?_
    split
    · exact asks_pure _
    · exact asks_request not_false

theorem reporting_asks (parts : List Bytes) :
    Asks (fun call => ¬ call.IsExecute) (Entry.report parts) :=
  Entry.report_asks (fun _ => not_false) parts

theorem refuse_asks (subject : Bytes) (errno : Errno) :
    Asks (fun call => ¬ call.IsExecute) (Entry.refuse subject errno) :=
  .bind (reporting_asks _) fun _ => asks_pure _

theorem executes_of_not_isExecute {call : Entry.Call} (other : ¬ call.IsExecute) :
    image.Executes call := by
  rintro program arguments environment rfl
  exact absurd trivial other

theorem redirect_executes (file : Option NulFree) (access : Entry.Access) (stream : Descriptor)
    {rest : Entry Int} (follows : Asks image.Executes rest) :
    Asks image.Executes (Entry.redirect file access stream rest) := by
  unfold Entry.redirect
  split
  · exact follows
  · refine .bind ((rebind_asks _ _ _).imp fun _ => executes_of_not_isExecute) fun rebound => ?_
    split
    · exact (refuse_asks _ _).imp fun _ => executes_of_not_isExecute
    · exact follows

theorem handOver_executes (image : Image) : Asks image.Executes (Entry.handOver image) := by
  unfold Entry.handOver
  have reporting : Asks image.Executes (Entry.report [image.notFoundReport]) :=
    (reporting_asks _).imp fun _ => executes_of_not_isExecute
  split
  · exact .bind reporting fun _ => asks_pure _
  · next program found =>
      refine .bind (asks_request ?_) fun errno => ?_
      · intro other arguments environment same
        cases same
        exact found
      · exact .bind reporting fun _ => asks_pure _

theorem permits_anywhere {α : Type} {program : Entry α}
    (asks : Asks (fun call => ¬ call.IsExecute) program) :
    Heeds (Recorded Entry.Anything) image.Permits program (fun _ _ => True) state := by
  refine asks.heeds_anywhere ?_
  rintro call before other program arguments environment rfl
  exact absurd trivial other

theorem permits_entered {α : Type} {program : Entry α} (asks : Asks image.Executes program)
    (entered : image.Entered state) :
    Heeds (Recorded Entry.Anything) image.Permits program (fun _ _ => True) state := by
  refine (asks.heeds entered ?_ ?_).imp fun _ _ _ => trivial
  · intro call before answer after _ entered recorded
    rw [Image.Entered, recorded.2]
    exact List.mem_append_left _ entered
  · intro call before executes entered program arguments environment same
    exact ⟨executes program arguments environment same, entered⟩

theorem enter_permits (image : Image) :
    Heeds (Recorded Entry.Anything) image.Permits (Entry.enter image) (fun _ _ => True) state := by
  unfold Entry.enter
  refine .bind (heeds_request nofun fun answer after recorded => ?_)
  cases answer with
  | error errno => exact permits_anywhere (refuse_asks _ errno)
  | ok _ =>
      have entered : image.Entered after := by
        rw [Image.Entered, recorded.2]
        exact List.mem_append_right _ (List.mem_singleton_self _)
      exact permits_entered
        (redirect_executes _ _ _ (redirect_executes _ _ _ (handOver_executes image))) entered

/-- A child executes its image's program, and only in the directory of its image. -/
theorem child_permits (image : Image) (wiring : Option Entry.Wiring) :
    Heeds (Recorded Entry.Anything) image.Permits (Child.steps ⟨image, wiring⟩) (fun _ _ => True)
      state := by
  unfold Child.steps
  split
  · exact enter_permits image
  · next wiring _ =>
      refine .bind ((permits_anywhere (wire_asks wiring)).imp fun wired after _ => ?_)
      split
      · exact permits_anywhere (.bind (reporting_asks _) fun _ => asks_pure _)
      · exact enter_permits image

end Child

/-! ## Children of a line -/

/-- The path is absolute, and a test has found it. -/
def Known (path : Path) (record : Shell.Trace) : Prop :=
  path.isAbsolute = true ∧ ⟨.pathExists path, true⟩ ∈ record

/-- A child executes a path that the line had found, in the directory of the surroundings. -/
structure ExecutesFound (surroundings : Surroundings) (early : Shell.Trace)
    (trace : List (Event Entry.Call Entry.Call.Answer)) (program : Path) : Prop where
  absolute : program.isAbsolute = true
  found : ⟨.pathExists program, true⟩ ∈ early
  /-- The child is in the directory. -/
  entered : ∃ directory : NulFree, directory.path = surroundings.directory ∧
    ⟨.enterDirectory directory, .ok ()⟩ ∈ trace
  /-- The path means the same in every directory, the shell's own included. -/
  same : ∀ own : Path, own.join program = surroundings.directory.join program

/-- Whatever is answered to the child, it executes only what the line had found. -/
def Grounded (surroundings : Surroundings) (early : Shell.Trace) (child : Child) : Prop :=
  ∀ trace program arguments environment again next,
    Reaches Entry.Anything child.steps () trace
      (.ask (.execute program arguments environment) again next) () →
        ExecutesFound surroundings early trace program.path

section Parts

variable {σ : Type} {step : (call : Request) → σ → call.Answer → σ → Prop}
variable {surroundings : Surroundings} {record : Shell.Trace} {state : σ × Shell.Trace}
variable {path : Path}

theorem Known.longer {later : Shell.Trace} (known : Known path record) (longer : record <+: later) :
    Known path later :=
  ⟨known.1, longer.subset known.2⟩

/-- An image whose program was found makes a child that executes it. -/
theorem grounded_of_made {command : Command} {program : Option Path} {context : Context}
    {image : Image} (prepared : Context.prepare surroundings = .ok context)
    (made : image.Made command program context)
    (found : ∀ path, program = some path → Known path record) (wiring : Option Entry.Wiring) :
    Grounded surroundings record ⟨image, wiring⟩ := by
  intro trace executed arguments environment again next reached
  have permitted : image.Permits (.execute executed arguments environment) ((), trace) :=
    child_permits image wiring trace _ _ (reached.recorded [])
  obtain ⟨same, entered⟩ := permitted executed arguments environment rfl
  have known : Known executed.path record := by
    apply found
    rw [← made.program, same, Option.map_some]
  have directory : image.context.directory.path = surroundings.directory := by
    rw [made.context]
    exact Context.directory_of_prepare prepared
  refine ⟨known.1, known.2, ⟨_, directory, entered⟩, fun own => ?_⟩
  rw [Path.join_of_isAbsolute own known.1, Path.join_of_isAbsolute _ known.1]

/-- A child may be started if it executes only what was found so far. -/
def Starts (surroundings : Surroundings) (call : Request) (state : σ × Shell.Trace) : Prop :=
  ∀ child, call = .fork child → Grounded surroundings state.2 child

/-- Every child of the program is grounded. -/
def Grounds {α : Type} (step : (call : Request) → σ → call.Answer → σ → Prop)
    (surroundings : Surroundings) (program : Shell α) : Prop :=
  ∀ state : σ × Shell.Trace,
    Heeds (Recorded step) (Starts surroundings) program (fun _ _ => True) state

theorem Grounds.bind {α β : Type} {program : Shell α} {rest : α → Shell β}
    (first : Grounds step surroundings program)
    (second : ∀ value, Grounds step surroundings (rest value)) :
    Grounds step surroundings (program >>= rest) := by
  intro state
  exact .bind ((first state).imp fun value after _ => second value after)

theorem grounds_of_asks {α : Type} {program : Shell α}
    (asks : Asks (fun call => ∀ child, call ≠ .fork child) program) :
    Grounds step surroundings program := by
  intro state
  refine asks.heeds_anywhere ?_
  intro call before other child same
  exact absurd same (other child)

theorem grounds_pure {α : Type} (value : α) : Grounds step surroundings (pure value : Shell α) :=
  fun _ => heeds_pure trivial

theorem isAbsolute_of_candidate {name : String} {searchPath : Option Bytes} {directory : Path}
    (absolute : directory.isAbsolute = true)
    (candidate : path ∈ SearchPath.candidates name searchPath directory) : path.isAbsolute = true := by
  have joined : ∀ path ∈ (SearchPath.entries (searchPath.getD [])).map fun entry =>
      directory.join (Path.join ⟨entry⟩ (Path.ofText name)), path.isAbsolute = true := by
    intro path mem
    obtain ⟨entry, _, rfl⟩ := List.mem_map.1 mem
    exact Path.isAbsolute_join _ absolute
  unfold SearchPath.candidates at candidate
  simp only at candidate
  split at candidate
  · next itself =>
      rcases List.mem_cons.1 candidate with rfl | found
      · exact itself
      · exact joined path found
  · exact joined path candidate

theorem starts_of_isTest {call : Request} (test : call.IsTest) :
    Starts surroundings call state := by
  rintro child rfl
  exact absurd test not_false

theorem firstExisting_knows {paths : List Path} (absolute : ∀ path ∈ paths, path.isAbsolute = true) :
    ∀ state : σ × Shell.Trace, Heeds (Recorded step) (Starts surroundings) (Shell.firstExisting paths)
      (fun found after => ∀ path, found = some path → Known path after.2) state := by
  induction paths with
  | nil =>
      intro state
      refine heeds_pure fun path found => ?_
      cases found
  | cons path rest ih =>
      intro state
      obtain ⟨here, later⟩ := List.forall_mem_cons.1 absolute
      have tests : Starts surroundings (.pathExists path) state := starts_of_isTest trivial
      unfold Shell.firstExisting
      refine .bind (heeds_request tests fun there after recorded => ?_)
      split
      · next found =>
          subst found
          refine heeds_pure fun taken same => ?_
          cases same
          refine ⟨here, ?_⟩
          rw [recorded.2]
          exact List.mem_append_right _ (List.mem_singleton_self _)
      · exact ih later after

theorem locate_knows (absolute : surroundings.directory.isAbsolute = true) (name : String) :
    Heeds (Recorded step) (Starts surroundings) (Shell.locate name surroundings)
      (fun found after => ∀ path, found.toOption = some path → Known path after.2) state := by
  unfold Shell.locate
  have candidates := fun path => @isAbsolute_of_candidate path name surroundings.searchPath _ absolute
  refine .bind ((firstExisting_knows candidates state).imp fun found after known => ?_)
  split
  · next path _ => exact heeds_pure known
  · exact heeds_pure nofun

theorem spawn_grounds {child : Child} (grounded : Grounded surroundings state.2 child)
    (background : Bool) :
    Heeds (Recorded step) (Starts surroundings) (Launch.spawn child background) (fun _ _ => True)
      state := by
  have starts : Starts surroundings (.fork child) state := by
    intro other same
    cases same
    exact grounded
  unfold Launch.spawn
  refine .bind (heeds_request starts fun answer after _ => ?_)
  split <;> exact heeds_pure trivial

theorem await_grounds (pid : Pid) : Grounds step surroundings (Job.await pid) := by
  refine grounds_of_asks ((await_asks pid).imp ?_)
  rintro _ rfl
  exact nofun

theorem command_grounds (absolute : surroundings.directory.isAbsolute = true) (command : Command)
    (background : Bool) :
    Grounds step surroundings (Launch.command surroundings command background) := by
  intro state
  unfold Launch.command
  refine .bind ((locate_knows absolute command.name).imp fun found after known => ?_)
  cases found with
  | error error => exact heeds_pure trivial
  | ok program =>
      simp only
      split
      · exact heeds_pure trivial
      · next image prepared =>
          obtain ⟨context, prepared, checked⟩ := bind_eq_ok_iff.1 prepared
          have grounded : Grounded surroundings after.2 ⟨image, none⟩ :=
            grounded_of_made prepared (Image.made_of_prepare checked) known none
          refine .bind ((spawn_grounds grounded background).imp fun started middle _ => ?_)
          split
          · exact heeds_pure trivial
          · split
            · exact heeds_pure trivial
            · refine (Grounds.bind (await_grounds _) fun waited => ?_) middle
              split <;> exact grounds_pure _

theorem stages_grounds {left right : Image} {ends : Request.Ends}
    (leftGrounded : ∀ wiring, Grounded surroundings state.2 ⟨left, wiring⟩)
    (rightGrounded : ∀ record, state.2 <+: record →
      ∀ wiring, Grounded surroundings record ⟨right, wiring⟩) :
    Heeds (Recorded step) (Starts surroundings) (Launch.stages left right ends) (fun _ _ => True)
      state := by
  have closed (descriptor : Descriptor) :
      Grounds step surroundings (Shell.system (.close descriptor)) :=
    grounds_of_asks (asks_request nofun)
  unfold Launch.stages
  refine .bind ((spawn_grounds (leftGrounded _) false).recording.imp fun started after longer => ?_)
  cases started with
  | error errno =>
      exact (Grounds.bind (closed _) fun _ => .bind (closed _) fun _ => grounds_pure _) after
  | ok job =>
      have grounded := rightGrounded after.2 longer.2 (some ⟨ends.write, ends.read, 0⟩)
      refine .bind ((spawn_grounds grounded false).imp fun second middle _ => ?_)
      refine (Grounds.bind (closed _) fun _ => .bind (closed _) fun _ =>
        .bind (await_grounds _) fun _ => ?_) middle
      split
      · exact grounds_pure _
      · refine .bind (await_grounds _) fun waited => ?_
        split <;> exact grounds_pure _

theorem pipe_grounds (absolute : surroundings.directory.isAbsolute = true) (left right : Command) :
    Grounds step surroundings (Launch.pipe surroundings left right) := by
  intro state
  unfold Launch.pipe
  split
  · exact heeds_pure trivial
  · next context prepared =>
      refine .bind ((locate_knows absolute left.name).imp fun leftFound between leftKnown => ?_)
      refine .bind ((locate_knows absolute right.name).recording.imp fun rightFound after known => ?_)
      obtain ⟨rightKnown, longer⟩ := known
      split
      · exact heeds_pure trivial
      · next first second checked =>
          simp only [Launch.images, bind_eq_ok_iff] at checked
          obtain ⟨_, leftChecked, _, rightChecked, same⟩ := checked
          cases same
          have leftMade := Image.made_of_prepare leftChecked
          have rightMade := Image.made_of_prepare rightChecked
          have asked : Starts surroundings .pipe after := nofun
          refine .bind ((heeds_request asked fun _ _ _ => trivial).recording.imp
            fun answer last later => ?_)
          cases answer with
          | error errno => exact heeds_pure trivial
          | ok ends =>
              refine stages_grounds ?_ ?_
              · refine grounded_of_made prepared leftMade fun path found => ?_
                exact (leftKnown path found).longer (longer.trans later.2)
              · intro record longer
                refine grounded_of_made prepared rightMade fun path found => ?_
                exact (rightKnown path found).longer (later.2.trans longer)

/-! ## Lines and courses -/

theorem reapAndReturn_grounds (session : Session) (flow : Flow) (complaint : Option Complaint) :
    Grounds step surroundings (session.reapAndReturn flow complaint) := by
  unfold Session.reapAndReturn Session.reap
  refine .bind (.bind (grounds_of_asks ((drain_asks session.jobs).imp ?_)) fun _ => grounds_pure _)
    fun _ => grounds_pure _
  rintro call poll child rfl
  exact absurd poll not_false

variable {session : Session}

theorem execute_grounds (absolute : session.directory.isAbsolute = true) (command : Command)
    (background : Bool) :
    Grounds step session.toSurroundings (session.execute command background) := by
  unfold Session.execute
  refine .bind (command_grounds absolute command background) fun launched => ?_
  split <;> exact grounds_pure _

theorem runBuiltin_grounds (session : Session) (builtin : Builtin) :
    Grounds step session.toSurroundings (session.runBuiltin builtin) := by
  cases builtin with
  | exit => exact reapAndReturn_grounds session .exit none
  | changeDirectory argument =>
      unfold Session.runBuiltin
      refine .bind (grounds_of_asks ((changeDirectory_asks session _).imp ?_)) fun changed => ?_
      · rintro call survey child rfl
        exact absurd survey not_false
      · split <;> exact grounds_pure _

theorem runCommandLine_grounds (absolute : session.directory.isAbsolute = true) (text : String) :
    Grounds step session.toSurroundings (session.runCommandLine text) := by
  unfold Session.runCommandLine
  generalize Marked.ofLine text = marked
  simp only
  split
  · exact reapAndReturn_grounds session _ _
  · split
    · unfold Session.runDetached
      refine .bind (execute_grounds absolute _ true) fun executed => ?_
      split <;> exact grounds_pure _
    · unfold Session.runAttached
      refine .bind (execute_grounds absolute _ false) fun executed => ?_
      split
      · exact grounds_pure _
      · exact reapAndReturn_grounds _ _ _
      · exact reapAndReturn_grounds _ _ _
  · unfold Session.runPipe
    refine .bind (pipe_grounds absolute _ _) fun result => ?_
    split <;> exact reapAndReturn_grounds session _ _

theorem Grounds.reaches {α : Type} {program : Shell α} (grounds : Grounds step surroundings program)
    {child : Child} {again : Except Errno Pid → Bool} {next : Except Errno Pid → Shell α}
    {early : Shell.Trace} {before middle : σ}
    (reached : Reaches step program before early (.ask (.fork child) again next) middle) :
    Grounded surroundings early child := by
  have starts : Starts surroundings (.fork child) (middle, [] ++ early) :=
    grounds (before, []) early _ _ (reached.recorded [])
  exact starts child rfl

-- A line is not known where this is used, and evaluating its parser then never ends.
attribute [irreducible] Grounds

theorem runLine_grounds (absolute : session.directory.isAbsolute = true) (line : String) :
    Grounds step session.toSurroundings (session.runLine line) := by
  cases recognised : Builtin.ofLine? (Session.textOf line) with
  | some builtin =>
      rw [runLine_of_builtin recognised]
      exact runBuiltin_grounds session builtin
  | none =>
      rw [runLine_of_command recognised]
      exact runCommandLine_grounds absolute (Session.textOf line)

/-- A session's directory stays absolute when the system resolves paths to absolute ones. -/
theorem Session.Course.absolute
    (canonical : ∀ path before directory after, step (.canonicalize path) before (.ok directory) after →
      directory.isAbsolute = true) {first : Session} {history : List Stretch}
    (absolute : first.directory.isAbsolute = true) (course : Course step first history session) :
    session.directory.isAbsolute = true := by
  induction course with
  | start => exact absolute
  | @line history session line state final trace outcome _ run ih =>
      cases runLine_moves line run with
      | stays _ same =>
          rw [same]
          exact ih
      | @moves path directory _ found moved =>
          obtain ⟨before, after, resolved⟩ := run.answered _ found
          rw [moved]
          exact canonical path before directory after resolved

/-- Over any lines, files and search paths, the directory stays absolute, and every child executes a
path that is absolute and that the line which starts the child has tested and found. -/
theorem Session.Course.grounded
    (canonical : ∀ path before directory after, step (.canonicalize path) before (.ok directory) after →
      directory.isAbsolute = true) {first : Session} {history : List Stretch}
    (absolute : first.directory.isAbsolute = true) (course : Course step first history session) :
    session.directory.isAbsolute = true ∧
      ∀ (line : String) (before middle : σ) (early : Shell.Trace) (child : Child)
        (again : Except Errno Pid → Bool) (next : Except Errno Pid → Shell Outcome),
        Reaches step (session.runLine line) before early (.ask (.fork child) again next) middle →
          Grounded session.toSurroundings early child := by
  have still : session.directory.isAbsolute = true := course.absolute canonical absolute
  refine ⟨still, ?_⟩
  intro line before middle early child again next reached
  exact (runLine_grounds still line).reaches reached

end Parts

/-! ## A relative search path -/

theorem Request.Plainly.canonical {present : Path → Bool} (path : Path) (before : Unit)
    (directory : Path) (after : Unit)
    (answered : Plainly present (.canonicalize path) before (.ok directory) after) :
    directory.isAbsolute = true := by
  have found : (if path.isAbsolute then .ok path else .error .ENOENT : Except Errno Path) =
      .ok directory := (Prod.mk.inj (Option.some.inj answered)).1
  split at found
  · next absolute =>
      obtain rfl : path = directory := Except.ok.inj found
      exact absolute
  · cases found

/-- What `ls` becomes in `/usr` when the search path is empty in its first entry and relative in its
second one. -/
def Child.listing : Child :=
  let checked := fun text => NulFree.clip (Bytes.ofText text)
  ⟨⟨"ls", some (checked "/usr/bin/ls"), [checked "ls"],
    ⟨checked "/usr", [checked "PATH=:bin", checked "PWD=/usr"]⟩, none, none⟩, none⟩

/-- The path that the test has found is the one that the child executes, after it has entered the
directory. -/
theorem Session.Course.grounded_relative :
    let checked := fun text => NulFree.clip (Bytes.ofText text)
    let first : Session := ⟨⟨Path.ofText "/", [⟨SearchPath.variableName, Bytes.ofText ":bin"⟩]⟩, []⟩
    let present : Path → Bool := fun path => path = Path.ofText "/usr/bin/ls"
    first.directory.isAbsolute = true ∧
      (∀ path before directory after,
        Request.Plainly present (.canonicalize path) before (.ok directory) after →
          directory.isAbsolute = true) ∧
      ∃ history session early again next trace last follows,
        Course (Request.Plainly present) first history session ∧
        history.map Stretch.line = ["cd usr"] ∧
        Reaches (Request.Plainly present) (session.runLine "ls") () early
          (.ask (.fork Child.listing) again next) () ∧
        Grounded session.toSurroundings early Child.listing ∧
        Reaches Entry.Anything Child.listing.steps () trace
          (.ask (.execute (checked "/usr/bin/ls") [checked "ls"]
            [checked "PATH=:bin", checked "PWD=/usr"]) last follows) () ∧
        trace.map Event.call = [.enterDirectory (checked "/usr")] ∧
        ExecutesFound session.toSurroundings early trace (checked "/usr/bin/ls").path := by
  intro checked first present
  have absolute : first.directory.isAbsolute = true := by decide +kernel
  let moved : Session := ⟨⟨Path.ofText "/usr", [⟨SearchPath.variableName, Bytes.ofText ":bin"⟩,
    ⟨directoryName, Bytes.ofText "/usr"⟩]⟩, []⟩
  have ran : first.through present ["cd usr"] = some moved := by decide +kernel
  obtain ⟨history, lines, course⟩ := Course.of_through .start ran
  have ahead : (advance (Request.plainly present) 2 (moved.runLine "ls") ()).bind
      (fun left => left.1.call?) = some (.fork Child.listing) := by decide +kernel
  obtain ⟨⟨left, last⟩, advanced, call⟩ := Option.bind_eq_some_iff.1 ahead
  obtain ⟨early, reached⟩ := reaches_of_advance (fun _ _ _ _ performs => performs) advanced
  cases left with
  | done outcome => cases call
  | ask asked again next =>
      obtain rfl : asked = .fork Child.listing := Option.some.inj call
      have grounded := (Session.Course.grounded Request.Plainly.canonical absolute course).2 "ls" () ()
        early Child.listing again next reached
      have entered : (advance (record fun call state => some (Entry.willing call, state)) 1
          Child.listing.steps ((), [])).map (fun left => (left.1.call?, left.2.2.map Event.call)) =
            some (some (.execute (checked "/usr/bin/ls") [checked "ls"]
              [checked "PATH=:bin", checked "PWD=/usr"]), [.enterDirectory (checked "/usr")]) := by
        decide +kernel
      obtain ⟨⟨left, ⟨⟩, trace⟩, advanced, summary⟩ := Option.map_eq_some_iff.1 entered
      obtain ⟨call, calls⟩ := Prod.mk.inj summary
      have executes : Reaches Entry.Anything Child.listing.steps () trace left () :=
        reaches_of_record (fun _ _ _ _ _ => trivial) advanced
      cases left with
      | done code => cases call
      | ask asked last follows =>
          obtain rfl := Option.some.inj call
          exact ⟨absolute, Request.Plainly.canonical, history, moved, early, again, next, trace, last,
            follows, course, lines, reached, grounded, executes, calls,
            grounded trace _ _ _ last follows executes⟩

end LineShell
