/-
# LineShell.Proofs.Errands -- a line as an errand that knows nothing of jobs

What a line asks for is an `Errand`, and it is read off the text alone.  The work of an
errand (`Errand.work`) is a program that is given the directory and the environment and
nothing else: it cannot look at the jobs, since it does not have them.  The jobs come in
afterwards (`Session.conclude`): they are collected, or one that was sent to the
background is put behind them.

`runLine_eq` says that running a line is the work followed by this conclusion, so what
holds of the two halves holds of every line.
-/
import LineShell.Proofs.Collecting

namespace LineShell

set_option autoImplicit false

open Program

/-- What a line asks for. -/
inductive Errand where
  | exit
  | move (argument : String)
  | complain (error : ParseError)
  | send (command : Command)
  | run (command : Command)
  | join (left right : Command)

/-- What the work of an errand comes to. -/
structure Work where
  surroundings : Surroundings
  complaint : Option Complaint
  /-- The job that was sent to the background. -/
  sent : Option Job

/-- What a launched command comes to. -/
def Work.ofLaunched (surroundings : Surroundings) : Except LaunchError Launched → Work
  | .ok (.started job) => ⟨surroundings, none, some job⟩
  | .ok (.finished code) => ⟨surroundings, Session.codeComplaint code, none⟩
  | .error error => ⟨surroundings, some (.launch error), none⟩

/-- What a pipe comes to. -/
def Work.ofPiped (surroundings : Surroundings) : Except LaunchError Int → Work
  | .ok code => ⟨surroundings, Session.codeComplaint code, none⟩
  | .error error => ⟨surroundings, some (.launch error), none⟩

/-- What a change of the directory comes to. -/
def Work.ofMoved : Except DirectoryError Unit × Session → Work
  | (.ok (), left) => ⟨left.toSurroundings, none, none⟩
  | (.error error, left) => ⟨left.toSurroundings, some (.directory error), none⟩

namespace Errand

/-- What a text without a line end asks for. -/
def ofText (text : String) : Errand :=
  match Builtin.ofLine? text with
  | some .exit => .exit
  | some (.changeDirectory argument) => .move argument
  | none =>
      match Line.parse (Marked.ofLine text).rest with
      | .error error => .complain error
      | .ok (.simple command) =>
          if (Marked.ofLine text).background then .send command else .run command
      | .ok (.pipe left right) => .join left right

/-- What a line asks for. -/
def ofLine (line : String) : Errand :=
  ofText (Session.textOf line)

/-- Whether jobs are collected when the work is done. -/
def collects : Errand → Bool
  | .move _ => false
  | .send _ => false
  | _ => true

/-- Whether the session goes on. -/
def flow : Errand → Flow
  | .exit => .exit
  | _ => .proceed

/-- The work of an errand.  It is given no jobs. -/
def work (surroundings : Surroundings) : Errand → Shell Work
  | .exit => return ⟨surroundings, none, none⟩
  | .move argument => do
      let moved ← (Session.start surroundings).changeDirectory (Session.directoryArgument argument)
      return .ofMoved moved
  | .complain error => return ⟨surroundings, Session.parseComplaint error, none⟩
  | .send command => do
      let launched ← Launch.command surroundings command true
      return .ofLaunched surroundings launched
  | .run command => do
      let launched ← Launch.command surroundings command false
      return .ofLaunched surroundings launched
  | .join left right => do
      let piped ← Launch.pipe surroundings left right
      return .ofPiped surroundings piped

end Errand

/-- The jobs come in when the work is done. -/
def Session.conclude (session : Session) (errand : Errand) (work : Work) : Shell Outcome :=
  let moved : Session := { session with toSurroundings := work.surroundings }
  if errand.collects then moved.reapAndReturn errand.flow work.complaint
  else
    return ⟨{ moved with jobs := session.jobs ++ work.sent.toList }, errand.flow,
      work.sent.toList.map fun job => .started job.pid, work.complaint⟩

section

variable {session : Session} {line text : String}

/-! ## Running a line is its work and the conclusion -/

theorem runDetached_eq (command : Command) :
    session.runDetached command =
      (Errand.send command).work session.toSurroundings >>= session.conclude (.send command) := by
  unfold Session.runDetached Session.execute Errand.work
  simp only [LawfulMonad.bind_assoc, LawfulMonad.pure_bind]
  refine congrArg _ (funext fun launched => ?_)
  rcases launched with error | ⟨code | job⟩ <;>
    simp [Work.ofLaunched, Session.conclude, Errand.collects, Errand.flow, Session.register]

/-- Nothing that runs in the foreground becomes a job. -/
theorem command_yields (surroundings : Surroundings) (command : Command) :
    (Launch.command surroundings command false).Yields fun launched =>
      ∀ job, launched ≠ .ok (.started job) := by
  unfold Launch.command
  refine yields_bind.2 (yields_of_forall (fun found => ?_) _)
  cases found with
  | error error => exact nofun
  | ok program =>
      simp only
      split
      · exact nofun
      · refine yields_bind.2 (yields_of_forall (fun spawned => ?_) _)
        cases spawned with
        | error errno => exact nofun
        | ok job =>
            refine yields_bind.2 (yields_of_forall (fun waited => ?_) _)
            cases waited <;> exact nofun

theorem runAttached_eq (command : Command) :
    session.runAttached command =
      (Errand.run command).work session.toSurroundings >>= session.conclude (.run command) := by
  unfold Session.runAttached Session.execute Errand.work
  simp only [LawfulMonad.bind_assoc, LawfulMonad.pure_bind]
  refine bind_congr_of_yields (command_yields _ _) fun launched unstarted => ?_
  rcases launched with error | ⟨code | job⟩
  · rfl
  · rfl
  · exact absurd rfl (unstarted job)

theorem runPipe_eq (left right : Command) :
    session.runPipe left right =
      (Errand.join left right).work session.toSurroundings >>= session.conclude (.join left right) := by
  unfold Session.runPipe Errand.work
  simp only [LawfulMonad.bind_assoc, LawfulMonad.pure_bind]
  refine congrArg _ (funext fun piped => ?_)
  cases piped <;> rfl

/-- The jobs are not looked at when the directory is changed. -/
theorem changeDirectory_eq (target : Option String) :
    session.changeDirectory target = do
      let moved ← (Session.start session.toSurroundings).changeDirectory target
      return (moved.1, { session with toSurroundings := moved.2.toSurroundings }) := by
  unfold Session.changeDirectory
  have same : (Session.start session.toSurroundings).directoryTarget? target =
      session.directoryTarget? target := rfl
  rw [same]
  split
  · rfl
  · simp only [LawfulMonad.bind_assoc]
    refine congrArg _ (funext fun found => ?_)
    cases found with
    | error errno => rfl
    | ok resolved =>
        simp only [LawfulMonad.bind_assoc]
        refine congrArg _ (funext fun there => ?_)
        cases there <;> rfl

theorem moveTo_eq (argument : String) :
    session.runBuiltin (.changeDirectory argument) =
      (Errand.move argument).work session.toSurroundings >>= session.conclude (.move argument) := by
  simp only [Session.runBuiltin, Errand.work]
  rw [changeDirectory_eq]
  simp only [LawfulMonad.bind_assoc, LawfulMonad.pure_bind]
  refine congrArg _ (funext fun moved => ?_)
  obtain ⟨error | done, left⟩ := moved <;>
    simp [Work.ofMoved, Session.conclude, Errand.collects, Errand.flow]

theorem runLine_eq (session : Session) (line : String) :
    session.runLine line =
      (Errand.ofLine line).work session.toSurroundings >>= session.conclude (Errand.ofLine line) := by
  unfold Errand.ofLine Errand.ofText
  cases recognised : Builtin.ofLine? (Session.textOf line) with
  | some builtin =>
      rw [runLine_of_builtin recognised]
      cases builtin with
      | exit => rfl
      | changeDirectory argument => exact moveTo_eq argument
  | none =>
      rw [runLine_of_command recognised]
      unfold Session.runCommandLine
      generalize Marked.ofLine (Session.textOf line) = marked
      simp only
      generalize Line.parse marked.rest = parsed
      rcases parsed with error | command | ⟨left, right⟩
      · rfl
      · cases marked.background
        · exact runAttached_eq command
        · exact runDetached_eq command
      · exact runPipe_eq left right

/-! ## Which lines do what -/

/-- How a text is read as an errand. -/
inductive Errand.Reads (text : String) : Errand → Prop where
  | exit : Builtin.ofLine? text = some .exit → Reads text .exit
  | move {argument : String} :
      Builtin.ofLine? text = some (.changeDirectory argument) → Reads text (.move argument)
  | complain {error : ParseError} : Builtin.ofLine? text = none →
      Line.parse (Marked.ofLine text).rest = .error error → Reads text (.complain error)
  | send {command : Command} : Builtin.ofLine? text = none →
      (Marked.ofLine text).background = true →
      Line.parse (Marked.ofLine text).rest = .ok (.simple command) → Reads text (.send command)
  | run {command : Command} : Builtin.ofLine? text = none →
      (Marked.ofLine text).background = false →
      Line.parse (Marked.ofLine text).rest = .ok (.simple command) → Reads text (.run command)
  | join {left right : Command} : Builtin.ofLine? text = none →
      Line.parse (Marked.ofLine text).rest = .ok (.pipe left right) → Reads text (.join left right)

theorem Errand.reads (text : String) : Reads text (ofText text) := by
  unfold ofText
  cases recognised : Builtin.ofLine? text with
  | some builtin =>
      cases builtin with
      | exit => exact .exit recognised
      | changeDirectory argument => exact .move recognised
  | none =>
      simp only
      split
      · next parsed => exact .complain recognised parsed
      · next parsed =>
          split
          · next sent => exact .send recognised sent parsed
          · next attached => exact .run recognised (Bool.not_eq_true _ ▸ attached) parsed
      · next parsed => exact .join recognised parsed

-- A line is not known where this is used, and evaluating its parser then never ends.
attribute [irreducible] Errand.ofText

/-- Only one builtin ends the session. -/
theorem Errand.flow_ofText (text : String) :
    (ofText text).flow = .exit ↔ Builtin.ofLine? text = some .exit := by
  have reads := reads text
  generalize ofText text = errand at reads ⊢
  cases reads <;> simp_all [flow]

/-- The errands that collect nothing are those of the lines that are exempt. -/
theorem Errand.collects_ofLine (line : String) :
    (ofLine line).collects = false ↔ Session.Exempt line := by
  unfold ofLine Session.Exempt Session.Detached
  have reads := reads (Session.textOf line)
  generalize ofText (Session.textOf line) = errand at reads ⊢
  cases reads <;> simp_all [collects]

theorem Errand.ofLine_eq_send_iff {line : String} {command : Command} :
    ofLine line = .send command ↔ Session.Detached line command := by
  unfold ofLine Session.Detached
  have reads := reads (Session.textOf line)
  generalize ofText (Session.textOf line) = errand at reads ⊢
  cases reads <;> simp_all

theorem Errand.ofLine_eq_move_iff {line argument : String} :
    ofLine line = .move argument ↔
      Builtin.ofLine? (Session.textOf line) = some (.changeDirectory argument) := by
  unfold ofLine
  have reads := reads (Session.textOf line)
  generalize ofText (Session.textOf line) = errand at reads ⊢
  cases reads <;> simp_all

/-! ## The work of an errand -/

/-- The work polls nothing: there are no jobs that it could ask for. -/
theorem Errand.work_asks_no_poll (errand : Errand) (surroundings : Surroundings) :
    Asks (fun call => ¬ call.IsPoll) (errand.work surroundings) := by
  cases errand with
  | exit => exact asks_pure _
  | move argument =>
      refine .bind ((changeDirectory_asks _ _).imp fun call survey => ?_) fun _ => asks_pure _
      cases call <;> first | exact not_false | exact absurd survey not_false
  | complain error => exact asks_pure _
  | send command => exact .bind (command_asks_no_poll _ _ _) fun _ => asks_pure _
  | run command => exact .bind (command_asks_no_poll _ _ _) fun _ => asks_pure _
  | join left right => exact .bind (pipe_asks_no_poll _ _ _) fun _ => asks_pure _

/-- Only a command that is sent to the background becomes a job. -/
theorem Errand.work_yields (errand : Errand) (surroundings : Surroundings) :
    (errand.work surroundings).Yields fun work =>
      (∃ command, errand = .send command) ∨ work.sent = none := by
  cases errand with
  | exit => exact .inr rfl
  | complain error => exact .inr rfl
  | move argument =>
      refine yields_bind.2 (yields_of_forall (fun moved => .inr ?_) _)
      obtain ⟨error | done, left⟩ := moved <;> rfl
  | send command => exact yields_of_forall (fun _ => .inl ⟨command, rfl⟩) _
  | run command =>
      refine yields_bind.2 ((command_yields surroundings command).imp fun launched unstarted => .inr ?_)
      rcases launched with error | ⟨code | job⟩
      · rfl
      · rfl
      · exact absurd rfl (unstarted job)
  | join left right =>
      refine yields_bind.2 (yields_of_forall (fun piped => .inr ?_) _)
      cases piped <;> rfl

variable {σ : Type} {step : (call : Request) → σ → call.Answer → σ → Prop} {state final : σ}
variable {trace : Shell.Trace} {outcome : Session.Outcome} {errand : Errand} {work : Work}

/-- What the conclusion of an errand makes of its work. -/
structure Concluded (step : (call : Request) → σ → call.Answer → σ → Prop) (session : Session)
    (errand : Errand) (work : Work) (state : σ) (trace : Shell.Trace) (outcome : Session.Outcome)
    (final : σ) : Prop where
  flow : outcome.flow = errand.flow
  complaint : outcome.complaint = work.complaint
  surroundings : outcome.session.toSurroundings = work.surroundings
  collected : errand.collects = true → ∃ collected,
    Runs step session.jobs.drain state trace (collected, outcome.session.jobs) final ∧
      outcome.notices = Session.collectionNotices collected
  registered : errand.collects = false → trace = [] ∧ final = state ∧
    outcome.session.jobs = session.jobs ++ work.sent.toList ∧
      outcome.notices = work.sent.toList.map fun job => .started job.pid

theorem Program.Runs.of_conclude
    (run : Runs step (session.conclude errand work) state trace outcome final) :
    Concluded step session errand work state trace outcome final := by
  unfold Session.conclude at run
  simp only at run
  split at run
  · next collects =>
      unfold Session.reapAndReturn Session.reap at run
      obtain ⟨_, _, _, ⟨notices, reaped⟩, rfl, collecting, last⟩ := run.of_bind
      obtain ⟨early, _, _, ⟨collected, left⟩, rfl, drains, paired⟩ := collecting.of_bind
      obtain ⟨rfl, same, rfl⟩ := paired.of_pure
      cases same
      obtain ⟨rfl, rfl, rfl⟩ := last.of_pure
      refine ⟨rfl, rfl, rfl, fun _ => ⟨collected, ?_, rfl⟩, fun not => ?_⟩
      · simpa using drains
      · rw [collects] at not
        cases not
  · next spares =>
      obtain ⟨rfl, rfl, rfl⟩ := run.of_pure
      exact ⟨rfl, rfl, rfl, fun collects => absurd collects spares, fun _ => ⟨rfl, rfl, rfl, rfl⟩⟩

/-- A run of a line is a run of its work and one of the conclusion. -/
theorem Program.Runs.of_runLine
    (run : Runs step (session.runLine line) state trace outcome final) :
    ∃ early late middle work, trace = early ++ late ∧
      Runs step ((Errand.ofLine line).work session.toSurroundings) state early work middle ∧
        Concluded step session (Errand.ofLine line) work middle late outcome final := by
  rw [runLine_eq] at run
  obtain ⟨early, late, middle, work, split, worked, concluded⟩ := run.of_bind
  exact ⟨early, late, middle, work, split, worked, concluded.of_conclude⟩

end

end LineShell
