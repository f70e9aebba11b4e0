/-
# LineShell.Proofs.Relocating -- a `cd` changes everything or nothing

A `cd` asks two questions at most: what a path is in full, and whether that is a directory
(`Session.Attempt` has one case for every end it can come to).  `Files` is something that
answers both, and `Files.Lead` says what a program comes to then.  Any answers to one `cd`
are those of some files (`exists_files`), so nothing is lost by asking files.

`Session.moves_or_stays` has an equivalence for each of the four ends.  What the session
is afterwards is said by `Session.Relocated`: it is in the directory that was found, the
first `PWD` of its environment says so, and everything else is as it was.
-/
import LineShell.Proofs.Joining
import LineShell.Proofs.Moving

namespace LineShell

set_option autoImplicit false

open Program

/-! ## One variable with a value -/

namespace Environment

variable {before after : Environment} {name value : Bytes}

/-- The environment with a value for a name: the first variable with the name has it, or else a new
one at the end. -/
inductive Assigned (name value : Bytes) (before : Environment) : Environment → Prop where
  | replaced {front back : Environment} {old : Bytes} :
      before = front ++ ⟨name, old⟩ :: back → (∀ other ∈ front, other.name ≠ name) →
      Assigned name value before (front ++ ⟨name, value⟩ :: back)
  | appended : (∀ other ∈ before, other.name ≠ name) →
      Assigned name value before (before ++ [⟨name, value⟩])

theorem assigned_iff : Assigned name value before after ↔ before.assign name value = after := by
  constructor
  · rintro (⟨rfl, absent⟩ | absent)
    · exact assign_of_front _ value absent
    · exact assign_of_absent value absent
  · rintro rfl
    rcases before.split_at name with absent | ⟨front, old, back, rfl, absent⟩
    · rw [assign_of_absent value absent]
      exact .appended absent
    · rw [assign_of_front old value absent]
      exact .replaced rfl absent

end Environment

/-! ## The ends of a `cd` -/

namespace Session

variable {session moved : Session} {argument : Option String} {target resolved : Path}

/-- Where `cd` is meant to go. -/
inductive Heads (session : Session) : Option String → Path → Prop where
  | given (text : String) : Heads session (some text) (.ofText text)
  /-- The user's own directory is the value of the first `HOME`. -/
  | home {front back : Environment} {value : Bytes} :
      session.environment = front ++ ⟨homeName, value⟩ :: back →
      (∀ other ∈ front, other.name ≠ homeName) → Heads session none ⟨value⟩

theorem heads_iff :
    session.Heads argument target ↔ session.directoryTarget? argument = some target := by
  cases argument with
  | some text =>
      constructor
      · rintro ⟨⟩
        rfl
      · intro there
        obtain rfl := Option.some.inj there
        exact .given text
  | none =>
      constructor
      · rintro (_ | ⟨split, absent⟩)
        simp [directoryTarget?, split, Environment.value?_of_front absent]
      · intro there
        obtain ⟨value, found, rfl⟩ := Option.map_eq_some_iff.1 there
        obtain ⟨front, back, split, absent⟩ := Environment.value?_eq_some_iff.1 found
        exact .home split absent

theorem directoryTarget?_eq_none_iff : session.directoryTarget? argument = none ↔
    argument = none ∧ ∀ other ∈ session.environment, other.name ≠ homeName := by
  cases argument with
  | some text => simp [directoryTarget?]
  | none => simp [directoryTarget?, Environment.value?_eq_none_iff]

/-- The session is in a directory and its environment says so; nothing else is different. -/
structure Relocated (session : Session) (resolved : Path) (moved : Session) : Prop where
  directory : moved.directory = resolved
  environment :
    Environment.Assigned directoryName resolved.bytes session.environment moved.environment
  current : moved.environment.value? directoryName = some resolved.bytes
  others : ∀ name, name ≠ directoryName →
    moved.environment.value? name = session.environment.value? name
  grows : moved.environment.length = session.environment.length + 1 ↔
    ∀ other ∈ session.environment, other.name ≠ directoryName
  fits : moved.environment.length = session.environment.length ↔
    ∃ other ∈ session.environment, other.name = directoryName
  jobs : moved.jobs = session.jobs

theorem relocated_moveTo (session : Session) (resolved : Path) :
    Relocated session resolved (session.moveTo resolved) where
  directory := rfl
  environment := Environment.assigned_iff.2 rfl
  current := Environment.value?_assign_self _ _ _
  others _ other := Environment.value?_assign_of_ne _ _ other
  grows := Environment.length_assign_eq_succ_iff
  fits := Environment.length_assign_eq_iff
  jobs := rfl

theorem relocated_iff : Relocated session resolved moved ↔ moved = session.moveTo resolved := by
  constructor
  · intro relocated
    obtain ⟨⟨directory, environment⟩, jobs⟩ := moved
    obtain rfl : directory = resolved := relocated.directory
    obtain rfl := Environment.assigned_iff.1 relocated.environment
    obtain rfl : jobs = session.jobs := relocated.jobs
    rfl
  · rintro rfl
    exact relocated_moveTo session resolved

end Session

/-! ## Files that answer -/

/-- Something that answers both questions of a `cd`. -/
structure Files where
  canonical : Path → Except Errno Path
  isDirectory : Path → Bool

/-- If the event is one of the two questions, these files answer it so. -/
def Request.Mirrors (files : Files) : Event Request Request.Answer → Prop
  | ⟨.canonicalize path, found⟩ => found = files.canonical path
  | ⟨.isDirectory path, isOne⟩ => isOne = files.isDirectory path
  | _ => True

/-- What a program can come to when these files answer. -/
def Files.Lead {α : Type} (files : Files) (program : Shell α) (value : α) : Prop :=
  Gives (Request.Mirrors files) program value

namespace Files

variable {files : Files} {session : Session} {argument : Option String}

/-- What a `cd` comes to, and the session that it leaves. -/
def destination (files : Files) (session : Session) (argument : Option String) :
    Except DirectoryError Unit × Session :=
  match session.directoryTarget? argument with
  | none => (.error .noHome, session)
  | some target =>
      match files.canonical (session.directory.join target) with
      | .error _ => (.error (.notFound target), session)
      | .ok resolved =>
          if files.isDirectory resolved then (.ok (), session.moveTo resolved)
          else (.error (.notADirectory target), session)

theorem lead_changeDirectory {result : Except DirectoryError Unit × Session} :
    files.Lead (session.changeDirectory argument) result ↔
      result = files.destination session argument := by
  unfold Session.changeDirectory destination
  cases session.directoryTarget? argument with
  | none => exact gives_pure
  | some target =>
      dsimp only
      refine (gives_request_bind fun _ => Iff.rfl).trans ?_
      cases files.canonical (session.directory.join target) with
      | error errno => exact gives_pure
      | ok resolved =>
          dsimp only
          refine (gives_request_bind fun _ => Iff.rfl).trans ?_
          cases files.isDirectory resolved <;> exact gives_pure

/-- The line ends with the session that the `cd` has left. -/
theorem lead_runBuiltin {typed : String} {outcome : Session.Outcome} :
    files.Lead (session.runBuiltin (.changeDirectory typed)) outcome ↔
      (∃ error left,
        files.Lead (session.changeDirectory (Session.directoryArgument typed)) (.error error, left) ∧
          outcome = ⟨left, .proceed, [], some (.directory error)⟩) ∨
      ∃ moved, files.Lead (session.changeDirectory (Session.directoryArgument typed)) (.ok (), moved) ∧
        outcome = ⟨moved, .proceed, [], none⟩ := by
  refine gives_bind.trans ⟨?_, ?_⟩
  · rintro ⟨⟨error | done, left⟩, changed, last⟩
    · exact .inl ⟨error, left, changed, gives_pure.1 last⟩
    · exact .inr ⟨left, changed, gives_pure.1 last⟩
  · rintro (⟨error, left, changed, rfl⟩ | ⟨moved, changed, rfl⟩)
    · exact ⟨(.error error, left), changed, gives_pure.2 rfl⟩
    · exact ⟨(.ok (), moved), changed, gives_pure.2 rfl⟩

end Files

/-! ## All or nothing -/

namespace Session

variable {session : Session} {argument : Option String} {files : Files}
variable {result : Except DirectoryError Unit × Session}

/-- The four ends of a `cd`, with the session that is left. -/
inductive Ends (files : Files) (session : Session) (argument : Option String) :
    Except DirectoryError Unit × Session → Prop where
  | homeless : argument = none → (∀ other ∈ session.environment, other.name ≠ homeName) →
      Ends files session argument (.error .noHome, session)
  | lost {target path : Path} {errno : Errno} : session.Heads argument target →
      Path.Joined session.directory target path → files.canonical path = .error errno →
      Ends files session argument (.error (.notFound target), session)
  | blocked {target path resolved : Path} : session.Heads argument target →
      Path.Joined session.directory target path → files.canonical path = .ok resolved →
      files.isDirectory resolved = false →
      Ends files session argument (.error (.notADirectory target), session)
  | through {target path resolved : Path} {moved : Session} : session.Heads argument target →
      Path.Joined session.directory target path → files.canonical path = .ok resolved →
      files.isDirectory resolved = true → Relocated session resolved moved →
      Ends files session argument (.ok (), moved)

theorem Ends.eq_destination (ends : Ends files session argument result) :
    result = files.destination session argument := by
  unfold Files.destination
  cases ends with
  | homeless nothing absent => rw [directoryTarget?_eq_none_iff.2 ⟨nothing, absent⟩]
  | lost heads joined failed => simp only [heads_iff.1 heads, joined.join_eq, failed]
  | blocked heads joined found other => simp [heads_iff.1 heads, joined.join_eq, found, other]
  | through heads joined found isOne relocated =>
      simp [heads_iff.1 heads, joined.join_eq, found, isOne, relocated_iff.1 relocated]

theorem ends_destination (files : Files) (session : Session) (argument : Option String) :
    Ends files session argument (files.destination session argument) := by
  unfold Files.destination
  split
  · next nowhere =>
      obtain ⟨nothing, absent⟩ := directoryTarget?_eq_none_iff.1 nowhere
      exact .homeless nothing absent
  · next target heads =>
      have heads := heads_iff.2 heads
      have joined := Path.joined_join session.directory target
      split
      · next failed => exact .lost heads joined failed
      · next resolved found =>
          split
          · next isOne => exact .through heads joined found isOne (relocated_moveTo session resolved)
          · next other => exact .blocked heads joined found (by simpa using other)

theorem lead_iff_ends :
    files.Lead (session.changeDirectory argument) result ↔ Ends files session argument result := by
  rw [Files.lead_changeDirectory]
  constructor
  · rintro rfl
    exact ends_destination files session argument
  · exact Ends.eq_destination

/-- The answers to one `cd` are those of some files. -/
theorem exists_files {σ : Type} {step : (call : Request) → σ → call.Answer → σ → Prop}
    {state final : σ} {trace : Shell.Trace}
    (run : Runs step (session.changeDirectory argument) state trace result final) :
    ∃ files : Files, ∀ event ∈ trace, Request.Mirrors files event := by
  cases run.attempt with
  | homeless nowhere => exact ⟨⟨.ok, fun _ => true⟩, List.forall_mem_nil _⟩
  | @lost target errno heads =>
      refine ⟨⟨fun _ => .error errno, fun _ => true⟩, ?_⟩
      exact List.forall_mem_cons.2 ⟨rfl, List.forall_mem_nil _⟩
  | @blocked target resolved heads =>
      refine ⟨⟨fun _ => .ok resolved, fun _ => false⟩, ?_⟩
      exact List.forall_mem_cons.2 ⟨rfl, List.forall_mem_cons.2 ⟨rfl, List.forall_mem_nil _⟩⟩
  | @through target resolved heads =>
      refine ⟨⟨fun _ => .ok resolved, fun _ => true⟩, ?_⟩
      exact List.forall_mem_cons.2 ⟨rfl, List.forall_mem_cons.2 ⟨rfl, List.forall_mem_nil _⟩⟩

/-- When a `cd` comes to what, and which session it leaves. -/
structure MovesOrStays (session : Session) (files : Files) : Prop where
  total : ∀ argument, ∃! result, files.Lead (session.changeDirectory argument) result
  homeless : ∀ argument left,
    files.Lead (session.changeDirectory argument) (.error .noHome, left) ↔
      (argument = none ∧ ∀ other ∈ session.environment, other.name ≠ homeName) ∧ left = session
  lost : ∀ argument target left,
    files.Lead (session.changeDirectory argument) (.error (.notFound target), left) ↔
      (session.Heads argument target ∧
        ∃ path errno, Path.Joined session.directory target path ∧
          files.canonical path = .error errno) ∧ left = session
  blocked : ∀ argument target left,
    files.Lead (session.changeDirectory argument) (.error (.notADirectory target), left) ↔
      (session.Heads argument target ∧
        ∃ path resolved, Path.Joined session.directory target path ∧
          files.canonical path = .ok resolved ∧ files.isDirectory resolved = false) ∧ left = session
  through : ∀ argument moved, files.Lead (session.changeDirectory argument) (.ok (), moved) ↔
    ∃ target path resolved, session.Heads argument target ∧
      Path.Joined session.directory target path ∧ files.canonical path = .ok resolved ∧
        files.isDirectory resolved = true ∧ Relocated session resolved moved
  /-- Every failure leaves the directory, the whole environment and the jobs as they were. -/
  stays : ∀ argument error left,
    files.Lead (session.changeDirectory argument) (.error error, left) → left = session
  /-- After a `cd` that went well the line ends with its session, after any other with the old one. -/
  line : ∀ typed outcome, files.Lead (session.runBuiltin (.changeDirectory typed)) outcome ↔
    (∃ error, files.Lead (session.changeDirectory (directoryArgument typed)) (.error error, session) ∧
      outcome = ⟨session, .proceed, [], some (.directory error)⟩) ∨
    ∃ moved, files.Lead (session.changeDirectory (directoryArgument typed)) (.ok (), moved) ∧
      outcome = ⟨moved, .proceed, [], none⟩

/-- What fails has changed nothing. -/
theorem Ends.eq_of_error {error : DirectoryError} {left : Session}
    (ends : Ends files session argument (.error error, left)) : left = session := by
  cases ends <;> rfl

theorem movesOrStays (session : Session) (files : Files) : MovesOrStays session files where
  total argument := ⟨_, Files.lead_changeDirectory.2 rfl, fun result => Files.lead_changeDirectory.1⟩
  homeless argument left := by
    rw [lead_iff_ends]
    constructor
    · intro ends
      cases ends with
      | homeless nothing absent => exact ⟨⟨nothing, absent⟩, rfl⟩
    · rintro ⟨⟨nothing, absent⟩, rfl⟩
      exact .homeless nothing absent
  lost argument target left := by
    rw [lead_iff_ends]
    constructor
    · intro ends
      cases ends with
      | lost heads joined failed => exact ⟨⟨heads, _, _, joined, failed⟩, rfl⟩
    · rintro ⟨⟨heads, path, errno, joined, failed⟩, rfl⟩
      exact .lost heads joined failed
  blocked argument target left := by
    rw [lead_iff_ends]
    constructor
    · intro ends
      cases ends with
      | blocked heads joined found other => exact ⟨⟨heads, _, _, joined, found, other⟩, rfl⟩
    · rintro ⟨⟨heads, path, resolved, joined, found, other⟩, rfl⟩
      exact .blocked heads joined found other
  through argument moved := by
    rw [lead_iff_ends]
    constructor
    · intro ends
      cases ends with
      | through heads joined found isOne relocated =>
          exact ⟨_, _, _, heads, joined, found, isOne, relocated⟩
    · rintro ⟨target, path, resolved, heads, joined, found, isOne, relocated⟩
      exact .through heads joined found isOne relocated
  stays argument error left failed := (lead_iff_ends.1 failed).eq_of_error
  line typed outcome := by
    rw [Files.lead_runBuiltin]
    refine or_congr_left ⟨?_, ?_⟩
    · rintro ⟨error, left, failed, rfl⟩
      obtain rfl := (lead_iff_ends.1 failed).eq_of_error
      exact ⟨error, failed, rfl⟩
    · rintro ⟨error, failed, rfl⟩
      exact ⟨error, session, failed, rfl⟩

/-- A `cd` moves the session as a whole or leaves it as it is, and any answers of any system to its
questions are those of some files. -/
theorem moves_or_stays (session : Session) :
    (∀ files, MovesOrStays session files) ∧
      ∀ {σ : Type} (step : (call : Request) → σ → call.Answer → σ → Prop) (state final : σ)
        (trace : Shell.Trace),
        (∀ argument result, Runs step (session.changeDirectory argument) state trace result final →
          ∃ files : Files, files.Lead (session.changeDirectory argument) result ∧
            ∀ event ∈ trace, Request.Mirrors files event) ∧
        ∀ typed outcome,
          Runs step (session.runBuiltin (.changeDirectory typed)) state trace outcome final →
            ∃ files : Files, files.Lead (session.runBuiltin (.changeDirectory typed)) outcome ∧
              ∀ event ∈ trace, Request.Mirrors files event := by
  refine ⟨movesOrStays session, fun step state final trace => ⟨?_, ?_⟩⟩
  · intro argument result run
    obtain ⟨files, mirrored⟩ := exists_files run
    exact ⟨files, run.gives mirrored, mirrored⟩
  · intro typed outcome run
    obtain ⟨early, late, middle, result, rfl, changed, last⟩ := Runs.of_bind run
    obtain ⟨files, mirrored⟩ := exists_files changed
    -- Nothing is asked after the directory has been changed or not.
    obtain rfl : late = [] := by
      obtain ⟨error | done, left⟩ := result
      · exact last.of_pure.1
      · exact last.of_pure.1
    rw [List.append_nil] at run ⊢
    exact ⟨files, run.gives mirrored, mirrored⟩

end Session

end LineShell
