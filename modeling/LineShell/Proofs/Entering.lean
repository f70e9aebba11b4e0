/-
# LineShell.Proofs.Entering -- how a child comes to its program

The steps of a child are hurdles: its directory, the file for its input, the file for its
output, and its program.  Two relations say what a hurdle is: by which calls, answered how,
it is cleared (`Clears`), and how it fails (`Fails`).  A child clears one hurdle after the
other up to the first that fails, and reports this one (`Stops`).  The program is never
cleared: a call that executes it comes back only when it fails.

`Entry.stops_at_first_failure` says that this is all that a child does, under any system,
and which exit code it has then; a run that comes to no end is the beginning of one that
does.  What follows for the calls is `Stopped`: there is one report, written to descriptor 2
part by part whatever becomes of the writes, the hurdles are taken in order, and a file is
opened where the directory leads.  The file for the output is
touched only when everything before it went well, and has been when it is the program that
fails.
-/
import LineShell.Entry
import LineShell.Proofs.Preparing
import LineShell.Proofs.Tracing

namespace LineShell

set_option autoImplicit false

open Program

namespace Entry

/-- The calls of a child with their answers. -/
abbrev Trace := List (Event Call Call.Answer)

/-! ## Hurdles -/

/-- A file that takes the place of a standard stream. -/
structure Redirection where
  file : NulFree
  access : Access
  stream : Descriptor

/-- The redirections of an image, the one for the input first. -/
def redirections (image : Image) : List Redirection :=
  (image.stdin.map fun file => ⟨file, .read, 0⟩).toList ++
    (image.stdout.map fun file => ⟨file, .truncate, 1⟩).toList

/-- What stands between a child and its program. -/
inductive Hurdle where
  | directory
  | redirection (redirection : Redirection)
  | program

/-- The hurdles before the program of an image, in order. -/
def hurdles (image : Image) : List Hurdle :=
  .directory :: (redirections image).map .redirection ++ [.program]

/-- Why a child came to its end. -/
inductive Failure where
  | directory (errno : Errno)
  | redirection (redirection : Redirection) (errno : Errno)
  /-- The name was not found, so there is no program. -/
  | unresolved
  | unexecutable (errno : Errno)

namespace Failure

/-- The exit code of the child. -/
def code : Failure → Int
  | .directory _ => 1
  | .redirection _ _ => 1
  | .unresolved => 127
  | .unexecutable errno => if errno = .ENOENT then 127 else 126

/-- What the child reports, as it is written. -/
def parts (image : Image) : Failure → List Bytes
  | .directory errno => refusal image.context.directory.bytes errno
  | .redirection target errno => refusal target.file.bytes errno
  | .unresolved => [image.notFoundReport]
  | .unexecutable _ => [image.notFoundReport]

/-- What the child reports. -/
def report (image : Image) : Failure → Bytes
  | .directory errno =>
      image.context.directory.bytes ++ Bytes.ofText (": " ++ errno.description ++ "\n")
  | .redirection target errno =>
      target.file.bytes ++ Bytes.ofText (": " ++ errno.description ++ "\n")
  | .unresolved => Bytes.ofText (image.name ++ ": command not found\n")
  | .unexecutable _ => Bytes.ofText (image.name ++ ": command not found\n")

/-- The answer that brought the child to its end. -/
def errno? : Failure → Option Errno
  | .directory errno => some errno
  | .redirection _ errno => some errno
  | .unresolved => none
  | .unexecutable errno => some errno

end Failure

/-- How a file takes the place of a stream, or not.  The stream may be the lowest free number, and
the file is then in its place from the beginning. -/
inductive Rebinds (redirection : Redirection) : Trace → Except Errno Unit → Prop where
  | refused (errno : Errno) :
      Rebinds redirection [⟨.openFile redirection.file redirection.access, .error errno⟩] (.error errno)
  | inPlace :
      Rebinds redirection
        [⟨.openFile redirection.file redirection.access, .ok redirection.stream⟩] (.ok ())
  | stuck {opened : Descriptor} (errno : Errno) : opened ≠ redirection.stream →
      Rebinds redirection [⟨.openFile redirection.file redirection.access, .ok opened⟩,
        ⟨.duplicate opened redirection.stream, .error errno⟩] (.error errno)
  | moved {opened : Descriptor} (result : Except Errno Unit) : opened ≠ redirection.stream →
      Rebinds redirection [⟨.openFile redirection.file redirection.access, .ok opened⟩,
        ⟨.duplicate opened redirection.stream, .ok ()⟩, ⟨.close opened, result⟩] result

/-- The calls by which a hurdle is cleared. -/
inductive Clears (image : Image) : Hurdle → Trace → Prop where
  | directory : Clears image .directory [⟨.enterDirectory image.context.directory, .ok ()⟩]
  | redirection {redirection : Redirection} {trace : Trace} :
      Rebinds redirection trace (.ok ()) → Clears image (.redirection redirection) trace

/-- The calls by which a hurdle fails. -/
inductive Fails (image : Image) : Hurdle → Trace → Failure → Prop where
  | directory (errno : Errno) :
      Fails image .directory [⟨.enterDirectory image.context.directory, .error errno⟩]
        (.directory errno)
  | redirection {redirection : Redirection} {trace : Trace} {errno : Errno} :
      Rebinds redirection trace (.error errno) →
      Fails image (.redirection redirection) trace (.redirection redirection errno)
  | unresolved : image.program = none → Fails image .program [] .unresolved
  | unexecutable {program : NulFree} (errno : Errno) : image.program = some program →
      Fails image .program [⟨.execute program image.arguments image.context.environment, errno⟩]
        (.unexecutable errno)

/-- The parts are written to descriptor 2, each whole and in order, whatever becomes of the writes. -/
def Writes (parts : List Bytes) (trace : Trace) : Prop :=
  trace.map Event.call = parts.map (Call.write 2)

/-- A child clears the hurdles up to the first that fails, and reports the failure. -/
inductive Stops (image : Image) : List Hurdle → Trace → Failure → Prop where
  | on {hurdle : Hurdle} {rest : List Hurdle} {early late : Trace} {failure : Failure} :
      Clears image hurdle early → Stops image rest late failure →
      Stops image (hurdle :: rest) (early ++ late) failure
  | here {hurdle : Hurdle} {rest : List Hurdle} {trace told : Trace} {failure : Failure} :
      Fails image hurdle trace failure → Writes (failure.parts image) told →
      Stops image (hurdle :: rest) (trace ++ told) failure

/-! ## The steps of a child are its hurdles -/

variable {image : Image} {redirection : Redirection} {trace : Trace}

/-- A call is asked first, whatever its answer is. -/
theorem runs_system {α : Type} {call : Call} {rest : call.Answer → Entry α} {value : α} :
    Runs Freely (system call >>= rest) () trace value () ↔
      ∃ answer later, trace = ⟨call, answer⟩ :: later ∧ Runs Freely (rest answer) () later value () := by
  constructor
  · intro run
    obtain ⟨answer, later, ⟨⟩, rfl, _, rest⟩ := runs_request_bind.1 run
    exact ⟨answer, later, rfl, rest⟩
  · rintro ⟨answer, later, rfl, run⟩
    exact runs_request_bind.2 ⟨answer, later, (), rfl, trivial, run⟩

theorem runs_rebind {file : NulFree} {access : Access} {stream : Descriptor}
    {result : Except Errno Unit} :
    Runs Freely (rebind file access stream) () trace result () ↔
      Rebinds ⟨file, access, stream⟩ trace result := by
  unfold rebind
  constructor
  · intro run
    obtain ⟨opened, _, rfl, behind⟩ := runs_system.1 run
    cases opened with
    | error errno =>
        obtain ⟨rfl, rfl, _⟩ := behind.of_pure
        exact .refused errno
    | ok opened =>
        by_cases inPlace : opened = stream
        · subst inPlace
          simp only [if_pos] at behind
          obtain ⟨rfl, rfl, _⟩ := behind.of_pure
          exact .inPlace
        · simp only [if_neg inPlace] at behind
          obtain ⟨duplicated, _, rfl, last⟩ := runs_system.1 behind
          cases duplicated with
          | error errno =>
              obtain ⟨rfl, rfl, _⟩ := last.of_pure
              exact .stuck errno inPlace
          | ok nothing =>
              obtain ⟨rfl, _⟩ := last.of_request
              exact .moved result inPlace
  · intro rebinds
    cases rebinds with
    | refused errno => exact runs_system.2 ⟨.error errno, [], rfl, runs_pure.2 ⟨rfl, rfl, rfl⟩⟩
    | inPlace =>
        refine runs_system.2 ⟨.ok stream, [], rfl, ?_⟩
        simp only [if_pos]
        exact runs_pure.2 ⟨rfl, rfl, rfl⟩
    | @stuck opened errno other =>
        refine runs_system.2 ⟨.ok opened, _, rfl, ?_⟩
        simp only [if_neg other]
        exact runs_system.2 ⟨.error errno, [], rfl, runs_pure.2 ⟨rfl, rfl, rfl⟩⟩
    | @moved opened result other =>
        refine runs_system.2 ⟨.ok opened, _, rfl, ?_⟩
        simp only [if_neg other]
        exact runs_system.2 ⟨.ok (), _, rfl, .request trivial⟩

theorem writes_cons {part : Bytes} {parts : List Bytes} :
    Writes (part :: parts) trace ↔
      ∃ answer later, trace = ⟨.write 2 part, answer⟩ :: later ∧ Writes parts later := by
  constructor
  · intro writes
    obtain ⟨⟨call, answer⟩, later, rfl, same, behind⟩ := List.map_eq_cons_iff.1 writes
    obtain rfl : call = .write 2 part := same
    exact ⟨answer, later, rfl, behind⟩
  · rintro ⟨answer, later, rfl, behind⟩
    exact congrArg (Call.write 2 part :: ·) behind

theorem runs_report {parts : List Bytes} {given code : Int} :
    Runs Freely (report parts >>= fun _ => pure given) () trace code () ↔
      Writes parts trace ∧ code = given := by
  induction parts generalizing trace with
  | nil =>
      refine runs_pure.trans ⟨?_, ?_⟩
      · rintro ⟨rfl, rfl, _⟩
        exact ⟨rfl, rfl⟩
      · rintro ⟨writes, rfl⟩
        exact ⟨List.map_eq_nil_iff.1 writes, rfl, rfl⟩
  | cons part parts ih =>
      rw [report, LawfulMonad.bind_assoc, runs_system, writes_cons]
      constructor
      · rintro ⟨answer, later, rfl, behind⟩
        obtain ⟨writes, rfl⟩ := ih.1 behind
        exact ⟨⟨answer, later, rfl, writes⟩, rfl⟩
      · rintro ⟨⟨answer, later, rfl, writes⟩, rfl⟩
        exact ⟨answer, later, rfl, ih.2 ⟨writes, rfl⟩⟩

/-- The program stops at the first of these hurdles that it does not clear, and nowhere else. -/
def Meets (image : Image) (hurdles : List Hurdle) (program : Entry Int) : Prop :=
  ∀ trace code, Runs Freely program () trace code () ↔
    ∃ failure, Stops image hurdles trace failure ∧ code = failure.code

/-- One hurdle more, which is cleared or refused for its subject. -/
theorem Meets.cons {hurdle : Hurdle} {hurdles : List Hurdle} {clear : Entry (Except Errno Unit)}
    {next : Except Errno Unit → Entry Int} {subject : Bytes} (refused : Errno → Failure)
    (follows : Meets image hurdles (next (.ok ())))
    (refuses : ∀ errno, next (.error errno) = refuse subject errno)
    (clears : ∀ trace, Runs Freely clear () trace (.ok ()) () ↔ Clears image hurdle trace)
    (fails : ∀ trace failure, Fails image hurdle trace failure ↔
      ∃ errno, failure = refused errno ∧ Runs Freely clear () trace (.error errno) ())
    (reports : ∀ errno, (refused errno).parts image = refusal subject errno)
    (code : ∀ errno, (refused errno).code = exitSetupFailed) :
    Meets image (hurdle :: hurdles) (clear >>= next) := by
  intro trace exit
  rw [runs_bind]
  constructor
  · rintro ⟨early, late, ⟨⟩, result, rfl, tried, behind⟩
    cases result with
    | error errno =>
        rw [refuses errno] at behind
        obtain ⟨told, rfl⟩ := runs_report.1 behind
        rw [← reports errno] at told
        exact ⟨refused errno, .here ((fails _ _).2 ⟨errno, rfl, tried⟩) told, (code errno).symm⟩
    | ok nothing =>
        obtain ⟨failure, stops, rfl⟩ := (follows late exit).1 behind
        exact ⟨failure, .on ((clears early).1 tried) stops, rfl⟩
  · rintro ⟨failure, stops, rfl⟩
    cases stops with
    | on cleared stops =>
        have behind := (follows _ _).2 ⟨failure, stops, rfl⟩
        exact ⟨_, _, (), .ok (), rfl, (clears _).2 cleared, behind⟩
    | here failed told =>
        obtain ⟨errno, rfl, tried⟩ := (fails _ _).1 failed
        refine ⟨_, _, (), .error errno, rfl, tried, ?_⟩
        rw [reports errno] at told
        rw [refuses errno, code errno]
        exact runs_report.2 ⟨told, rfl⟩

theorem notFoundReport_eq (image : Image) :
    image.notFoundReport = Bytes.ofText (image.name ++ ": command not found\n") := by
  rw [Image.notFoundReport, NotFound.message, String.append_assoc]
  rfl

/-- Put together, the parts are the report. -/
theorem Failure.flatten_parts (image : Image) (failure : Failure) :
    (failure.parts image).flatten = failure.report image := by
  cases failure with
  | directory errno => simp [parts, report, refusal, Bytes.ofText_append]
  | redirection target errno => simp [parts, report, refusal, Bytes.ofText_append]
  | unresolved => exact (List.append_nil _).trans (notFoundReport_eq image)
  | unexecutable errno => exact (List.append_nil _).trans (notFoundReport_eq image)

theorem handOver_meets (image : Image) : Meets image [.program] (handOver image) := by
  intro trace code
  unfold handOver
  cases found : image.program with
  | none =>
      refine runs_report.trans ⟨?_, ?_⟩
      · rintro ⟨told, rfl⟩
        exact ⟨.unresolved, .here (.unresolved found) told, rfl⟩
      · rintro ⟨failure, stops, rfl⟩
        cases stops with
        | on cleared => cases cleared
        | here failed told =>
            cases failed with
            | unresolved => exact ⟨told, rfl⟩
            | unexecutable _ other => cases found.symm.trans other
  | some program =>
      refine runs_system.trans ⟨?_, ?_⟩
      · rintro ⟨errno, _, rfl, behind⟩
        obtain ⟨told, rfl⟩ := runs_report.1 behind
        exact ⟨.unexecutable errno, .here (.unexecutable errno found) told, rfl⟩
      · rintro ⟨failure, stops, rfl⟩
        cases stops with
        | on cleared => cases cleared
        | here failed told =>
            cases failed with
            | unresolved none => cases found.symm.trans none
            | unexecutable errno same =>
                cases found.symm.trans same
                exact ⟨errno, _, rfl, runs_report.2 ⟨told, rfl⟩⟩

theorem redirect_meets {hurdles : List Hurdle} {rest : Entry Int} (file : Option NulFree)
    (access : Access) (stream : Descriptor) (follows : Meets image hurdles rest) :
    Meets image ((file.map fun file => ⟨file, access, stream⟩).toList.map .redirection ++ hurdles)
      (redirect file access stream rest) := by
  cases file with
  | none => exact follows
  | some file =>
      refine Meets.cons (.redirection ⟨file, access, stream⟩) follows (fun _ => rfl)
        (fun trace => ?_) (fun trace failure => ?_) (fun _ => rfl) fun _ => rfl
      · rw [runs_rebind]
        constructor
        · exact .redirection
        · intro cleared
          cases cleared with
          | redirection rebinds => exact rebinds
      · constructor
        · intro failed
          cases failed with
          | redirection rebinds => exact ⟨_, rfl, runs_rebind.2 rebinds⟩
        · rintro ⟨errno, rfl, tried⟩
          exact .redirection (runs_rebind.1 tried)

theorem enter_meets (image : Image) : Meets image (hurdles image) (enter image) := by
  have program : Meets image [.program] (handOver image) := handOver_meets image
  have output := redirect_meets image.stdout .truncate 1 program
  have input := redirect_meets image.stdin .read 0 output
  have split : hurdles image = .directory ::
      ((image.stdin.map fun file => ⟨file, .read, 0⟩).toList.map .redirection ++
        ((image.stdout.map fun file => ⟨file, .truncate, 1⟩).toList.map .redirection ++
          [.program])) := by
    simp [hurdles, redirections]
  rw [split]
  refine Meets.cons .directory input (fun _ => rfl) (fun trace => ?_) (fun trace failure => ?_)
    (fun _ => rfl) fun _ => rfl
  · constructor
    · intro run
      obtain ⟨rfl, _⟩ := run.of_request
      exact .directory
    · intro cleared
      cases cleared with
      | directory => exact .request trivial
  · constructor
    · intro failed
      cases failed with
      | directory errno => exact ⟨errno, rfl, .request trivial⟩
    · rintro ⟨errno, rfl, tried⟩
      obtain ⟨rfl, _⟩ := tried.of_request
      exact .directory errno

/-! ## Every call can be answered -/

theorem answerable_system (call : Call) : Answerable (system call) :=
  match call with
  | .enterDirectory _ => answerable_request (.ok ())
  | .openFile _ _ => answerable_request (.ok 0)
  | .duplicate _ _ => answerable_request (.ok ())
  | .close _ => answerable_request (.ok ())
  | .execute _ _ _ => answerable_request .ENOENT
  | .write _ _ => answerable_request (.ok 0)

theorem report_answerable (parts : List Bytes) : Answerable (report parts) := by
  induction parts with
  | nil => exact answerable_pure _
  | cons part parts ih => exact .bind (answerable_system _) fun _ => ih

theorem rebind_answerable (file : NulFree) (access : Access) (stream : Descriptor) :
    Answerable (rebind file access stream) := by
  unfold rebind
  refine .bind (answerable_system _) fun opened => ?_
  split
  · exact answerable_pure _
  · split
    · exact answerable_pure _
    · refine .bind (answerable_system _) fun duplicated => ?_
      split
      · exact answerable_pure _
      · exact answerable_system _

theorem refuse_answerable (subject : Bytes) (errno : Errno) : Answerable (refuse subject errno) :=
  .bind (report_answerable _) fun _ => answerable_pure _

theorem redirect_answerable {rest : Entry Int} (file : Option NulFree) (access : Access)
    (stream : Descriptor) (follows : Answerable rest) :
    Answerable (redirect file access stream rest) := by
  unfold redirect
  split
  · exact follows
  · refine .bind (rebind_answerable _ _ _) fun rebound => ?_
    split
    · exact refuse_answerable _ _
    · exact follows

theorem handOver_answerable (image : Image) : Answerable (handOver image) := by
  unfold handOver
  split
  · exact .bind (report_answerable _) fun _ => answerable_pure _
  · exact .bind (answerable_system _) fun _ => .bind (report_answerable _) fun _ => answerable_pure _

theorem enter_answerable (image : Image) : Answerable (enter image) := by
  unfold enter
  refine .bind (answerable_system _) fun entered => ?_
  split
  · exact refuse_answerable _ _
  · exact redirect_answerable _ _ _ (redirect_answerable _ _ _ (handOver_answerable image))

/-! ## Writing a report -/

/-- A report asks for writes to descriptor 2 only. -/
theorem report_asks {allowed : Call → Prop} (may : ∀ part, allowed (.write 2 part))
    (parts : List Bytes) : Asks allowed (report parts) := by
  induction parts with
  | nil => exact asks_pure _
  | cons part parts ih => exact .bind (asks_request (may part)) fun _ => ih

/-- Nothing changes while a report is written, if nothing does by a write. -/
theorem report_heeds {σ : Type} {step : (call : Call) → σ → call.Answer → σ → Prop}
    {permits : Call → σ → Prop} (may : ∀ part before, permits (.write 2 part) before)
    (stays : ∀ part before answer after, step (.write 2 part) before answer after → after = before)
    (parts : List Bytes) (state : σ) :
    Heeds step permits (report parts) (fun _ after => after = state) state := by
  induction parts with
  | nil => exact heeds_pure rfl
  | cons part parts ih =>
      refine .bind (heeds_request (may part state) fun answer after written => ?_)
      rw [stays part state answer after written]
      exact ih

/-! ## What comes of it -/

/-- The error that a call was answered with; executing a program gives no other answer.  Nothing is
made of the error of a write. -/
def errno? : Event Call Call.Answer → Option Errno
  | ⟨.enterDirectory _, .error errno⟩ => some errno
  | ⟨.openFile _ _, .error errno⟩ => some errno
  | ⟨.duplicate _ _, .error errno⟩ => some errno
  | ⟨.close _, .error errno⟩ => some errno
  | ⟨.execute _ _ _, errno⟩ => some errno
  | _ => none

/-- What a call writes, and where. -/
def written? : Event Call Call.Answer → Option (Descriptor × Bytes)
  | ⟨.write descriptor bytes, _⟩ => some (descriptor, bytes)
  | _ => none

/-- The call takes a hurdle; the others put a file in its place or write. -/
def Call.takesHurdle : Call → Bool
  | .enterDirectory _ | .openFile _ _ | .execute _ _ _ => true
  | .duplicate _ _ | .close _ | .write _ _ => false

/-- The call that takes a hurdle.  There is none when there is no program. -/
def Hurdle.call? (image : Image) : Hurdle → Option Call
  | .directory => some (.enterDirectory image.context.directory)
  | .redirection redirection => some (.openFile redirection.file redirection.access)
  | .program => image.program.map fun program =>
      .execute program image.arguments image.context.environment

/-- A file that a child asked for: where it is, seen from where the child was started, and whether it
was opened.  A file that was opened for writing is there and empty. -/
structure Opening where
  path : Path
  access : Access
  done : Bool
  deriving DecidableEq

/-- The files that a child asks for, seen from the directory in which it is at that time. -/
def openings : Path → Trace → List Opening
  | _, [] => []
  | here, ⟨.enterDirectory directory, .ok ()⟩ :: rest => openings (here.join directory.path) rest
  | here, ⟨.openFile file access, answer⟩ :: rest =>
      ⟨here.join file.path, access, answer.isOk⟩ :: openings here rest
  | here, _ :: rest => openings here rest

/-- The file of a redirection, opened from a directory. -/
def Redirection.opening (here : Path) (done : Bool) (redirection : Redirection) : Opening :=
  ⟨here.join redirection.file.path, redirection.access, done⟩

variable {hurdle : Hurdle} {failure : Failure} {here : Path}

theorem Clears.quiet (cleared : Clears image hurdle trace) :
    ∀ event ∈ trace, errno? event = none ∧ written? event = none := by
  cases cleared with
  | directory => simp [errno?, written?]
  | redirection rebinds => cases rebinds <;> simp [errno?, written?]

theorem Clears.calls (cleared : Clears image hurdle trace) :
    (trace.map Event.call).filter Call.takesHurdle = (hurdle.call? image).toList := by
  cases cleared with
  | directory => rfl
  | redirection rebinds => cases rebinds <;> rfl

/-- The last call is the first one that fails, if one does. -/
theorem Fails.first (fails : Fails image hurdle trace failure) :
    ∃ earlier fatal, trace = earlier ++ fatal ∧ (∀ event ∈ earlier, errno? event = none) ∧
      fatal.map errno? = failure.errno?.toList.map some := by
  cases fails with
  | directory errno => exact ⟨[], _, rfl, nofun, rfl⟩
  | redirection rebinds =>
      cases rebinds with
      | refused errno => exact ⟨[], _, rfl, nofun, rfl⟩
      | stuck errno other => exact ⟨[_], [_], rfl, by simp [errno?], rfl⟩
      | moved result other => exact ⟨[_, _], [_], rfl, by simp [errno?], rfl⟩
  | unresolved none => exact ⟨[], [], rfl, nofun, rfl⟩
  | unexecutable errno some => exact ⟨[], _, rfl, nofun, rfl⟩

theorem Fails.silent (fails : Fails image hurdle trace failure) :
    ∀ event ∈ trace, written? event = none := by
  cases fails with
  | redirection rebinds => cases rebinds <;> simp [written?]
  | _ => simp [written?]

theorem Fails.calls (fails : Fails image hurdle trace failure) :
    (trace.map Event.call).filter Call.takesHurdle = (hurdle.call? image).toList := by
  cases fails with
  | directory errno => rfl
  | redirection rebinds => cases rebinds <;> rfl
  | unresolved none => simp [Hurdle.call?, none]
  | unexecutable errno some => simp [Hurdle.call?, some, Call.takesHurdle]

theorem Rebinds.openings_append {result : Except Errno Unit} (here : Path)
    (rebinds : Rebinds redirection trace result) :
    ∃ done, (result = .ok () → done = true) ∧ ∀ rest, openings here (trace ++ rest) =
      redirection.opening here done :: openings here rest := by
  cases rebinds with
  | refused errno => exact ⟨false, nofun, fun _ => rfl⟩
  | inPlace => exact ⟨true, fun _ => rfl, fun _ => rfl⟩
  | stuck errno other => exact ⟨true, fun _ => rfl, fun _ => rfl⟩
  | moved result other => exact ⟨true, fun _ => rfl, fun _ => rfl⟩

/-! ## Every image -/

theorem Stops.first {hurdles : List Hurdle} (stops : Stops image hurdles trace failure) :
    ∃ earlier fatal told, trace = earlier ++ fatal ++ told ∧ Writes (failure.parts image) told ∧
      (∀ event ∈ earlier, errno? event = none) ∧
        fatal.map errno? = failure.errno?.toList.map some := by
  induction stops with
  | @on _ _ early _ _ cleared _ ih =>
      obtain ⟨earlier, fatal, told, rfl, writes, well, failing⟩ := ih
      refine ⟨early ++ earlier, fatal, told, by simp only [List.append_assoc], writes, ?_, failing⟩
      exact List.forall_mem_append.2 ⟨fun event mem => (cleared.quiet event mem).1, well⟩
  | here fails writes =>
      obtain ⟨earlier, fatal, rfl, well, failing⟩ := fails.first
      exact ⟨earlier, fatal, _, rfl, writes, well, failing⟩

theorem Writes.written {parts : List Bytes} (writes : Writes parts trace) :
    trace.filterMap written? = parts.map fun part => (2, part) := by
  induction parts generalizing trace with
  | nil =>
      rw [List.map_eq_nil_iff.1 writes]
      rfl
  | cons part parts ih =>
      obtain ⟨answer, later, rfl, behind⟩ := writes_cons.1 writes
      exact congrArg ((2, part) :: ·) (ih behind)

/-- No file is asked for by a write. -/
theorem Writes.openings {parts : List Bytes} (writes : Writes parts trace) (here : Path) :
    Entry.openings here trace = [] := by
  induction parts generalizing trace with
  | nil =>
      rw [List.map_eq_nil_iff.1 writes]
      rfl
  | cons part parts ih =>
      obtain ⟨answer, later, rfl, behind⟩ := writes_cons.1 writes
      have nothing := ih behind
      exact nothing

theorem Writes.calls {parts : List Bytes} (writes : Writes parts trace) :
    (trace.map Event.call).filter Call.takesHurdle = [] := by
  rw [writes, List.filter_eq_nil_iff]
  intro call mem
  obtain ⟨part, _, rfl⟩ := List.mem_map.1 mem
  exact Bool.false_ne_true

theorem Stops.written {hurdles : List Hurdle} (stops : Stops image hurdles trace failure) :
    trace.filterMap written? = (failure.parts image).map fun part => (2, part) := by
  induction stops with
  | on cleared _ ih =>
      have silent := List.filterMap_eq_nil_iff.2 fun event mem => (cleared.quiet event mem).2
      rw [List.filterMap_append, silent, ih, List.nil_append]
  | here fails writes =>
      rw [List.filterMap_append, List.filterMap_eq_nil_iff.2 fails.silent, List.nil_append,
        writes.written]

/-- All that is written is the report. -/
theorem Stops.reports {hurdles : List Hurdle} (stops : Stops image hurdles trace failure) :
    ((trace.filterMap written?).map Prod.snd).flatten = failure.report image := by
  rw [stops.written, List.map_map, ← failure.flatten_parts image]
  exact congrArg List.flatten (List.map_id _)

theorem Stops.calls {hurdles : List Hurdle} (stops : Stops image hurdles trace failure) :
    (trace.map Event.call).filter Call.takesHurdle <+: hurdles.filterMap (Hurdle.call? image) := by
  have split (hurdle : Hurdle) (rest : List Hurdle) :
      (hurdle :: rest).filterMap (Hurdle.call? image) =
        (hurdle.call? image).toList ++ rest.filterMap (Hurdle.call? image) := by
    cases found : hurdle.call? image <;> simp [found]
  induction stops with
  | on cleared _ ih =>
      rw [List.map_append, List.filter_append, cleared.calls, split]
      exact (List.prefix_append_right_inj _).2 ih
  | here fails writes =>
      rw [List.map_append, List.filter_append, fails.calls, writes.calls, split]
      exact (List.prefix_append_right_inj _).2 List.nil_prefix

/-- The files that are asked for up to the failure: behind all of them stands the program. -/
theorem Stops.files {redirections : List Redirection} (here : Path)
    (stops : Stops image (redirections.map .redirection ++ [.program]) trace failure) :
    (∃ passed redirection left errno done, redirections = passed ++ redirection :: left ∧
      failure = .redirection redirection errno ∧
      openings here trace =
        passed.map (Redirection.opening here true) ++ [redirection.opening here done]) ∨
    ((failure = .unresolved ∨ ∃ errno, failure = .unexecutable errno) ∧
      openings here trace = redirections.map (Redirection.opening here true)) := by
  -- The hurdles are no variable, so the induction is on the files.
  induction redirections generalizing trace with
  | nil =>
      cases stops with
      | on cleared => cases cleared
      | here fails writes =>
          cases fails with
          | unresolved _ => exact .inr ⟨.inl rfl, writes.openings here⟩
          | unexecutable errno _ => exact .inr ⟨.inr ⟨errno, rfl⟩, writes.openings here⟩
  | cons first rest ih =>
      rw [List.map_cons, List.cons_append] at stops
      cases stops with
      | on cleared stops =>
          cases cleared with
          | redirection rebinds =>
              obtain ⟨done, well, opened⟩ := rebinds.openings_append here
              obtain rfl : done = true := well rfl
              rcases ih stops with ⟨passed, redirection, left, errno, done, rfl, rfl, files⟩ |
                ⟨behind, files⟩
              · refine .inl ⟨first :: passed, redirection, left, errno, done, rfl, rfl, ?_⟩
                rw [opened, files]
                rfl
              · refine .inr ⟨behind, ?_⟩
                rw [opened, files]
                rfl
      | here fails writes =>
          cases fails with
          | @redirection _ _ errno rebinds =>
              obtain ⟨done, _, opened⟩ := rebinds.openings_append here
              refine .inl ⟨[], first, rest, errno, done, rfl, rfl, ?_⟩
              rw [opened, writes.openings]
              rfl

theorem redirections_pairwise (image : Image) :
    (redirections image).Pairwise fun one other => other.access = .read → one.access = .read := by
  unfold redirections
  cases image.stdin <;> cases image.stdout <;> simp

/-- No file is written up to the one for the input. -/
theorem reads_up_to_input {passed left : List Redirection}
    (split : redirections image = passed ++ redirection :: left) (read : redirection.access = .read) :
    ∀ asked ∈ passed ++ [redirection], asked.access = .read := by
  have ordered := redirections_pairwise image
  rw [split] at ordered
  obtain ⟨_, _, across⟩ := List.pairwise_append.1 ordered
  intro asked mem
  rcases List.mem_append.1 mem with earlier | last
  · exact across asked earlier redirection List.mem_cons_self read
  · rwa [List.mem_singleton.1 last]

theorem exists_of_mem_openings {passed : List Redirection} {done : Bool} {opening : Opening}
    (mem : opening ∈ passed.map (Redirection.opening here true) ++ [redirection.opening here done]) :
    ∃ asked ∈ passed ++ [redirection], ∃ done, opening = asked.opening here done := by
  rcases List.mem_append.1 mem with earlier | last
  · obtain ⟨asked, named, rfl⟩ := List.mem_map.1 earlier
    exact ⟨asked, List.mem_append_left _ named, true, rfl⟩
  · exact ⟨redirection, List.mem_append_right _ List.mem_cons_self, done, List.mem_singleton.1 last⟩

/-- What a child has done when it comes to its end, started in a directory. -/
structure Stopped (image : Image) (start : Path) (trace : Trace) (failure : Failure) : Prop where
  /-- The last call but the report is the first one that fails, if one does. -/
  first : ∃ earlier fatal told, trace = earlier ++ fatal ++ told ∧ Writes (failure.parts image) told ∧
    (∀ event ∈ earlier, errno? event = none) ∧ fatal.map errno? = failure.errno?.toList.map some
  /-- Nothing else is written, and nothing to another descriptor. -/
  written : trace.filterMap written? = (failure.parts image).map fun part => (2, part)
  reports : ((trace.filterMap written?).map Prod.snd).flatten = failure.report image
  /-- The hurdles are taken in order. -/
  calls : (trace.map Event.call).filter Call.takesHurdle <+:
    (hurdles image).filterMap (Hurdle.call? image)
  /-- The files are those of the redirections, seen from the directory of the image. -/
  inside : ∀ opening ∈ openings start trace, ∃ redirection ∈ redirections image, ∃ done,
    opening = redirection.opening (start.join image.context.directory.path) done
  unopened : ∀ errno, failure = .directory errno → openings start trace = []
  /-- The file for the output was not asked for when the one for the input failed. -/
  untouched : ∀ redirection errno, failure = .redirection redirection errno →
    redirection.access = .read → ∀ opening ∈ openings start trace, opening.access = .read
  /-- When it is the program that fails, the file for the output was created or emptied. -/
  emptied : failure = .unresolved ∨ (∃ errno, failure = .unexecutable errno) →
    openings start trace = (redirections image).map
      (Redirection.opening (start.join image.context.directory.path) true)

theorem Stops.stopped {start : Path} (stops : Stops image (hurdles image) trace failure) :
    Stopped image start trace failure := by
  have first := stops.first
  have written := stops.written
  have reports := stops.reports
  have calls := stops.calls
  rw [hurdles, List.cons_append] at stops
  cases stops with
  | here fails writes =>
      cases fails with
      | directory errno =>
          have none : openings start _ = [] := writes.openings start
          exact ⟨first, written, reports, calls, none ▸ nofun, fun _ _ => none, nofun, nofun⟩
  | @on _ _ _ late _ cleared stops =>
      cases cleared with
      | directory =>
          have entered : openings start ([⟨.enterDirectory image.context.directory, .ok ()⟩] ++ late) =
              openings (start.join image.context.directory.path) late := rfl
          rcases stops.files (start.join image.context.directory.path) with
            ⟨passed, redirection, left, errno, done, split, rfl, files⟩ | ⟨behind, files⟩
          · rw [files] at entered
            refine ⟨first, written, reports, calls, ?_, nofun, ?_, nofun⟩
            · rw [entered]
              intro opening mem
              obtain ⟨asked, named, done, rfl⟩ := exists_of_mem_openings mem
              refine ⟨asked, ?_, done, rfl⟩
              rw [split, List.append_cons]
              exact List.mem_append_left _ named
            · rintro _ _ ⟨⟩ read
              rw [entered]
              intro opening mem
              obtain ⟨asked, named, done, rfl⟩ := exists_of_mem_openings mem
              exact reads_up_to_input split read asked named
          · rw [files] at entered
            refine ⟨first, written, reports, calls, ?_, ?_, ?_, fun _ => entered⟩
            · rw [entered]
              intro opening mem
              obtain ⟨asked, named, rfl⟩ := List.mem_map.1 mem
              exact ⟨asked, named, true, rfl⟩
            · rintro errno rfl
              rcases behind with same | ⟨_, same⟩ <;> cases same
            · rintro redirection errno rfl
              rcases behind with same | ⟨_, same⟩ <;> cases same

/-- A child takes its hurdles one after the other and stops at the first that fails. -/
theorem stops_at_first_failure {σ : Type} (step : (call : Call) → σ → call.Answer → σ → Prop)
    (image : Image) (state : σ) :
    (∀ trace code final, Runs step (enter image) state trace code final ↔
      (∃ failure, Stops image (hurdles image) trace failure ∧ code = failure.code) ∧
        Answered step state trace final) ∧
    (∀ trace call final, ComesTo step (enter image) state trace call final → ∀ answer,
      ∃ later failure, Stops image (hurdles image) (trace ++ ⟨call, answer⟩ :: later) failure) ∧
    ∀ start trace failure, Stops image (hurdles image) trace failure →
      Stopped image start trace failure := by
  refine ⟨fun trace code final => ?_, ?_, fun start trace failure stops => stops.stopped⟩
  · rw [runs_iff_freely, enter_meets image trace code]
  · intro trace call final comes answer
    obtain ⟨later, code, run⟩ := (enter_answerable image).exists_run_of_comesTo comes answer
    obtain ⟨failure, stops, _⟩ := (enter_meets image _ code).1 run
    exact ⟨later, failure, stops⟩

/-- A system that refuses nothing but programs. -/
def willing : (call : Call) → call.Answer
  | .enterDirectory _ => .ok ()
  | .openFile _ _ => .ok 3
  | .duplicate _ _ => .ok ()
  | .close _ => .ok ()
  | .execute _ _ _ => .EACCES
  | .write _ bytes => .ok bytes.length

/-- A name that was not found is reported behind a file that is empty by then. -/
theorem stops_at_first_failure_unresolved :
    let image : Image := ⟨"sort", none, [], ⟨⟨Bytes.ofText "/w", by decide +kernel⟩, []⟩, none,
      some ⟨Bytes.ofText "out", by decide +kernel⟩⟩
    let step := fun (call : Call) (_ : Unit) (answer : call.Answer) (_ : Unit) => answer = willing call
    ∃ trace, Runs step (enter image) () trace 127 () ∧
      openings (Path.ofText "/") trace = [⟨Path.ofText "/w/out", .truncate, true⟩] ∧
      ∃ failure, Stops image (hurdles image) trace failure ∧
        Stopped image (Path.ofText "/") trace failure := by
  intro image step
  have done : (enter image).runWith (fun call state => some (willing call, state)) 1 () =
      some (127, ()) := by
    decide +kernel
  have willingly : ∀ call state answer after, some (willing call, state) = some (answer, after) →
      step call state answer after :=
    fun _ _ _ _ answered => (Prod.mk.inj (Option.some.inj answered)).1.symm
  obtain ⟨trace, run⟩ := runs_of_runWith willingly done
  obtain ⟨runs, _, stopped⟩ := stops_at_first_failure step image ()
  obtain ⟨⟨failure, stops, code⟩, _⟩ := (runs trace 127 ()).1 run
  have left := stopped (Path.ofText "/") trace failure stops
  refine ⟨trace, run, ?_, failure, stops, left⟩
  refine (left.emptied ?_).trans (by decide +kernel)
  cases failure with
  | directory errno => cases code
  | redirection redirection errno => cases code
  | unresolved => exact .inl rfl
  | unexecutable errno => exact .inr ⟨errno, rfl⟩

end Entry

end LineShell
