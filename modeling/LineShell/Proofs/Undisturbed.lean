/-
# LineShell.Proofs.Undisturbed -- jobs do not influence what runs in the foreground

The work of a line is the same program in every session with the same directory and
environment (`Errand.work`), so two runs of it that are answered alike are one run
(`Runs.unique`).  The answers are compared in the foreground only: what is told about jobs
may differ, and a different number of polls may be made.  What the jobs add afterwards is
at most lines of output that tell of jobs that are gone (`withoutTerminations`).

`Session.Course.undisturbed` says this of two whole sessions with any jobs, line after line,
together with what becomes of the jobs of either (`Disposes`).
-/
import LineShell.Proofs.Turns

namespace LineShell

set_option autoImplicit false

open Program

/-! ## Two runs of one program -/

namespace Program

variable {Call : Type} {Answer : Call → Type} {α σ τ : Type}

/-- As long as the same was asked and answered, the next call is answered in the same way. -/
def AnsweredAlike (one other : List (Event Call Answer)) : Prop :=
  ∀ before call answer reply after rest, one = before ++ ⟨call, answer⟩ :: after →
    other = before ++ ⟨call, reply⟩ :: rest → answer = reply

variable {one other : List (Event Call Answer)}

theorem AnsweredAlike.tail {event : Event Call Answer}
    (alike : AnsweredAlike (event :: one) (event :: other)) : AnsweredAlike one other := by
  rintro before call answer reply after rest rfl rfl
  exact alike (event :: before) call answer reply after rest rfl rfl

/-- Answers that depend on the call alone are alike. -/
theorem answeredAlike_of_function {answers : (call : Call) → Answer call}
    (first : ∀ event ∈ one, event.answer = answers event.call)
    (second : ∀ event ∈ other, event.answer = answers event.call) : AnsweredAlike one other := by
  rintro before call answer reply after rest rfl rfl
  have given : answer = answers call := first ⟨call, answer⟩ (by simp)
  have replied : reply = answers call := second ⟨call, reply⟩ (by simp)
  rw [given, replied]

variable {step : (call : Call) → σ → Answer call → σ → Prop}
variable {otherStep : (call : Call) → τ → Answer call → τ → Prop}

/-- Two runs of one program that are answered alike are the same run, in whatever states. -/
theorem Runs.unique {program : Program Call Answer α} {state final : σ} {otherState otherFinal : τ}
    {value otherValue : α} (run : Runs step program state one value final)
    (otherRun : Runs otherStep program otherState other otherValue otherFinal)
    (alike : AnsweredAlike one other) : one = other ∧ value = otherValue := by
  induction run generalizing otherState other with
  | done value state =>
      cases otherRun
      exact ⟨rfl, rfl⟩
  | @again call again next state middle final answer trace value answered repeated _ ih =>
      cases otherRun with
      | again _ _ later =>
          obtain rfl := alike [] call _ _ _ _ rfl rfl
          obtain ⟨rfl, same⟩ := ih later alike.tail
          exact ⟨rfl, same⟩
      | next _ usable later =>
          obtain rfl := alike [] call _ _ _ _ rfl rfl
          rw [repeated] at usable
          cases usable
  | @next call again next state middle final answer trace value answered usable _ ih =>
      cases otherRun with
      | again _ repeated later =>
          obtain rfl := alike [] call _ _ _ _ rfl rfl
          rw [usable] at repeated
          cases repeated
      | next _ _ later =>
          obtain rfl := alike [] call _ _ _ _ rfl rfl
          obtain ⟨rfl, same⟩ := ih later alike.tail
          exact ⟨rfl, same⟩

/-- The calls and their answers say what a program comes to. -/
theorem Runs.value_unique {program : Program Call Answer α} {state final : σ} {otherState otherFinal : τ}
    {value otherValue : α} (run : Runs step program state one value final)
    (otherRun : Runs otherStep program otherState one otherValue otherFinal) : value = otherValue := by
  refine (run.unique otherRun ?_).2
  rintro before call answer reply after rest rfl same
  obtain ⟨same, _⟩ := List.cons.inj (List.append_cancel_left same)
  cases same
  rfl

end Program

/-! ## The foreground of a run -/

instance (call : Request) : Decidable call.IsPoll :=
  match call with
  | .poll _ => isTrue trivial
  | .pathExists _ | .canonicalize _ | .isDirectory _ | .pipe | .close _ | .fork _ | .wait _ =>
      isFalse not_false

/-- The calls of a run that do not ask for a job, with their answers. -/
def foreground (trace : Shell.Trace) : Shell.Trace :=
  trace.filter fun event => ¬ event.call.IsPoll

theorem foreground_append_polls {early late : Shell.Trace}
    (unpolled : ∀ event ∈ early, ¬ event.call.IsPoll) (polls : ∀ event ∈ late, event.call.IsPoll) :
    foreground (early ++ late) = early := by
  have kept : foreground early = early := List.filter_eq_self.2 fun event mem => by
    simpa using unpolled event mem
  have dropped : foreground late = [] := List.filter_eq_nil_iff.2 fun event mem => by
    simpa using polls event mem
  unfold foreground at kept dropped ⊢
  rw [List.filter_append, kept, dropped, List.append_nil]

/-! ## The output without the jobs that are gone -/

/-- The lines of an output, without those that tell of a job that is gone. -/
def withoutTerminations (output : String) : List (List Char) :=
  (cutAfter (· == '\n') output.toList).filter fun line =>
    !"Background task terminated".toList.isPrefixOf line

theorem digit_ne_newline {c : Char} (digit : c.isDigit = true) : (c == '\n') = false := by
  rw [beq_eq_false_iff_ne]
  rintro rfl
  cases digit

theorem repr_no_newline (number : Nat) : ∀ c ∈ number.repr.toList, (c == '\n') = false := by
  intro c mem
  rw [Nat.repr, String.toList_ofList] at mem
  exact digit_ne_newline (Nat.isDigit_of_mem_toDigits (by decide) (by decide) mem)

/-- A number is written without a newline. -/
theorem toString_no_newline (code : Int) : ∀ c ∈ (toString code).toList, (c == '\n') = false := by
  intro c mem
  cases code with
  | ofNat number => exact repr_no_newline number c mem
  | negSucc number =>
      have mem : c ∈ ("-" ++ (number + 1).repr).toList := mem
      rw [String.toList_append] at mem
      rcases List.mem_append.1 mem with sign | digits
      · obtain rfl : c = '-' := by simpa using sign
        decide
      · exact repr_no_newline (number + 1) c digits

theorem no_newline_of_all {text : String} (clean : (text.toList.all fun c => c != '\n') = true) :
    ∀ c ∈ text.toList, (c == '\n') = false := by
  intro c mem
  simpa using List.all_eq_true.1 clean c mem

theorem terminated_no_newline (code : Int) :
    ∀ c ∈ (Notice.terminated code).message.toList, (c == '\n') = false := by
  intro c mem
  unfold Notice.message at mem
  rw [String.toList_append] at mem
  rcases List.mem_append.1 mem with text | digits
  · exact no_newline_of_all (by decide) c text
  · exact toString_no_newline code c digits

theorem terminated_begins (code : Int) (rest : List Char) :
    "Background task terminated".toList <+: (Notice.terminated code).message.toList ++ rest := by
  have begins : "Background task terminated".toList <+:
      "Background task terminated with exit code ".toList := by
    decide +kernel
  unfold Notice.message
  rw [String.toList_append, List.append_assoc]
  exact begins.trans (List.prefix_append _ _)

/-- A drain tells of jobs that are gone, and of nothing else. -/
theorem withoutTerminations_of_codes (codes : List Int) :
    withoutTerminations (String.join (codes.map fun code => (Notice.terminated code).message ++ "\n")) =
      [] := by
  induction codes with
  | nil => rfl
  | cons code rest ih =>
      have told := List.isPrefixOf_iff_prefix.2 (terminated_begins code ['\n'])
      have cut (more : List Char) : cutAfter (· == '\n')
          ((Notice.terminated code).message.toList ++ '\n' :: more) = _ :=
        cutAfter_append (terminated_no_newline code) (beq_self_eq_true '\n')
      unfold withoutTerminations at ih ⊢
      rw [String.toList_join] at ih ⊢
      rw [List.map_cons, List.flatMap_cons, String.toList_append, List.append_assoc]
      rw [show "\n".toList = ['\n'] from rfl, List.singleton_append, cut, List.filter_cons, told]
      exact ih

theorem withoutTerminations_of_notices {outcome : Session.Outcome} {collected : List Collected}
    (notices : outcome.notices = Session.collectionNotices collected) :
    withoutTerminations outcome.output = [] := by
  have silent := withoutTerminations_of_codes
    ((collected.filter fun child => decide (0 < child.code)).map Collected.code)
  rw [List.map_map] at silent
  rw [Session.Outcome.output, notices, Session.collectionNotices, List.map_map]
  exact silent

/-! ## One line in two sessions -/

section Lines

variable {σ τ : Type} {step : (call : Request) → σ → call.Answer → σ → Prop}
variable {otherStep : (call : Request) → τ → call.Answer → τ → Prop}

/-- What becomes of the jobs of a session when a line is run. -/
structure Disposes (step : (call : Request) → σ → call.Answer → σ → Prop) (stretch : Stretch)
    (pushed : Option Job) : Prop where
  /-- A command that is sent to the background is put behind the jobs. -/
  detached : ∀ command, Session.Detached stretch.line command →
    stretch.outcome.session.jobs = stretch.session.jobs ++ pushed.toList
  /-- A change of the directory leaves the jobs alone. -/
  moved : ∀ argument,
    Builtin.ofLine? (Session.textOf stretch.line) = some (.changeDirectory argument) →
      stretch.outcome.session.jobs = stretch.session.jobs
  /-- Any other line drains them. -/
  drained : ¬ Session.Exempt stretch.line → ∃ middle late collected final,
    stretch.trace = foreground stretch.trace ++ late ∧
      Runs step stretch.session.jobs.drain middle late (collected, stretch.outcome.session.jobs) final
  /-- Nothing is pushed by another line. -/
  pushed : pushed ≠ none → ∃ command, Session.Detached stretch.line command

/-- Whatever the jobs were, the line has come to the same. -/
structure Undisturbed (step : (call : Request) → σ → call.Answer → σ → Prop)
    (otherStep : (call : Request) → τ → call.Answer → τ → Prop) (one other : Stretch) : Prop where
  flow : one.outcome.flow = other.outcome.flow
  errors : one.outcome.errors = other.outcome.errors
  surroundings : one.outcome.session.toSurroundings = other.outcome.session.toSurroundings
  /-- The same was asked in the foreground, so the same children were started. -/
  foreground : foreground one.trace = foreground other.trace
  output : withoutTerminations one.outcome.output = withoutTerminations other.outcome.output
  jobs : ∃ pushed, Disposes step one pushed ∧ Disposes otherStep other pushed

section

variable {session : Session} {line : String} {errand : Errand} {work : Work} {state middle final : σ}
variable {early late : Shell.Trace} {outcome : Session.Outcome}

/-- The work is what runs in the foreground. -/
theorem Concluded.foreground_eq
    (worked : Runs step (errand.work session.toSurroundings) state early work middle)
    (concluded : Concluded step session errand work middle late outcome final) :
    foreground (early ++ late) = early := by
  have unpolled := (errand.work_asks_no_poll session.toSurroundings).runs worked
  refine foreground_append_polls unpolled ?_
  cases collects : errand.collects with
  | true =>
      obtain ⟨collected, drains, _⟩ := concluded.collected collects
      exact (drain_asks session.jobs).runs drains
  | false =>
      obtain ⟨rfl, _⟩ := concluded.registered collects
      exact List.forall_mem_nil _

theorem Concluded.disposes
    (worked : Runs step ((Errand.ofLine line).work session.toSurroundings) state early work middle)
    (concluded : Concluded step session (Errand.ofLine line) work middle late outcome final) :
    Disposes step ⟨session, line, early ++ late, outcome⟩ work.sent where
  detached := by
    intro command sent
    have spares := (Errand.collects_ofLine line).2 (.inr ⟨command, sent⟩)
    exact (concluded.registered spares).2.2.1
  moved := by
    intro argument recognised
    have spares := (Errand.collects_ofLine line).2 (.inl ⟨argument, recognised⟩)
    have unsent : work.sent = none := by
      refine ((Errand.work_yields _ _).runs worked).resolve_left ?_
      rintro ⟨command, sends⟩
      rw [Errand.ofLine_eq_move_iff.2 recognised] at sends
      cases sends
    have jobs := (concluded.registered spares).2.2.1
    rwa [unsent, Option.toList_none, List.append_nil] at jobs
  drained := by
    intro required
    have collects : (Errand.ofLine line).collects = true := by
      rw [← Bool.not_eq_false, Errand.collects_ofLine]
      exact required
    obtain ⟨collected, drains, _⟩ := concluded.collected collects
    refine ⟨middle, late, collected, final, ?_, drains⟩
    rw [concluded.foreground_eq worked]
  pushed := by
    intro some
    obtain ⟨command, sends⟩ := ((Errand.work_yields _ _).runs worked).resolve_right some
    exact ⟨command, Errand.ofLine_eq_send_iff.1 sends⟩

end

/-- The work is the same in both sessions, and the jobs come in when it is done. -/
theorem undisturbed_of_runs {session otherSession : Session} {line : String} {state final : σ}
    {otherState otherFinal : τ} {trace otherTrace : Shell.Trace}
    {outcome otherOutcome : Session.Outcome}
    (run : Runs step (session.runLine line) state trace outcome final)
    (otherRun : Runs otherStep (otherSession.runLine line) otherState otherTrace otherOutcome
      otherFinal)
    (same : session.toSurroundings = otherSession.toSurroundings)
    (alike : AnsweredAlike (foreground trace) (foreground otherTrace)) :
    Undisturbed step otherStep ⟨session, line, trace, outcome⟩
      ⟨otherSession, line, otherTrace, otherOutcome⟩ := by
  obtain ⟨early, late, middle, work, rfl, worked, concluded⟩ := run.of_runLine
  obtain ⟨otherEarly, otherLate, otherMiddle, otherWork, rfl, otherWorked, otherConcluded⟩ :=
    otherRun.of_runLine
  have kept := concluded.foreground_eq worked
  have otherKept := otherConcluded.foreground_eq otherWorked
  rw [kept, otherKept] at alike
  have disposes := concluded.disposes worked
  have otherDisposes := otherConcluded.disposes otherWorked
  rw [same] at worked
  obtain ⟨rfl, rfl⟩ := worked.unique otherWorked alike
  refine ⟨?_, ?_, ?_, kept.trans otherKept.symm, ?_, work.sent, disposes, otherDisposes⟩
  · exact concluded.flow.trans otherConcluded.flow.symm
  · unfold Session.Outcome.errors
    rw [concluded.complaint, otherConcluded.complaint]
  · exact concluded.surroundings.trans otherConcluded.surroundings.symm
  · simp only
    cases collects : (Errand.ofLine line).collects with
    | true =>
        obtain ⟨_, _, told⟩ := concluded.collected collects
        obtain ⟨_, _, otherTold⟩ := otherConcluded.collected collects
        rw [withoutTerminations_of_notices told, withoutTerminations_of_notices otherTold]
    | false =>
        obtain ⟨_, _, _, told⟩ := concluded.registered collects
        obtain ⟨_, _, _, otherTold⟩ := otherConcluded.registered collects
        unfold Session.Outcome.output
        rw [told, otherTold]

/-! ## Whole sessions -/

/-- Two sessions run the same line, and it is answered alike in the foreground. -/
structure Stretch.Matches (one other : Stretch) : Prop where
  line : one.line = other.line
  alike : AnsweredAlike (foreground one.trace) (foreground other.trace)

/-- A course that is not empty ends with a run of its last line. -/
theorem Session.Course.of_concat {first last : Session} {history : List Stretch} {stretch : Stretch}
    (course : Course step first (history ++ [stretch]) last) :
    Course step first history stretch.session ∧ last = stretch.outcome.session ∧
      ∃ state final, Runs step (stretch.session.runLine stretch.line) state stretch.trace
        stretch.outcome final := by
  generalize joined : history ++ [stretch] = whole at course
  cases course with
  | start => simp at joined
  | line earlier run =>
      obtain ⟨rfl, same⟩ := List.append_inj' joined rfl
      obtain rfl := List.singleton_inj.1 same
      exact ⟨earlier, rfl, _, _, run⟩

theorem forall₂_concat_left {α β : Type} {related : α → β → Prop} {front : List α} {last : α}
    {list : List β} (all : List.Forall₂ related (front ++ [last]) list) :
    ∃ otherFront otherLast, list = otherFront ++ [otherLast] ∧
      List.Forall₂ related front otherFront ∧ related last otherLast := by
  induction front generalizing list with
  | nil =>
      obtain ⟨other, rest, holds, none, rfl⟩ := List.forall₂_cons_left_iff.1 all
      obtain rfl := List.forall₂_nil_left_iff.1 none
      exact ⟨[], other, rfl, .nil, holds⟩
  | cons first front ih =>
      obtain ⟨other, rest, holds, more, rfl⟩ := List.forall₂_cons_left_iff.1 all
      obtain ⟨otherFront, otherLast, rfl, fronts, lasts⟩ := ih more
      exact ⟨other :: otherFront, otherLast, rfl, .cons holds fronts, lasts⟩

/-- Two sessions in the same directory with the same environment, with any jobs, come to the same in
line after line, as long as the foreground is answered alike. -/
theorem Session.Course.undisturbed {first otherFirst last otherLast : Session}
    {history otherHistory : List Stretch} (course : Course step first history last)
    (otherCourse : Course otherStep otherFirst otherHistory otherLast)
    (same : first.toSurroundings = otherFirst.toSurroundings)
    (alike : List.Forall₂ Stretch.Matches history otherHistory) :
    last.toSurroundings = otherLast.toSurroundings ∧
      List.Forall₂ (Undisturbed step otherStep) history otherHistory := by
  induction course generalizing otherHistory otherLast with
  | start =>
      obtain rfl := List.forall₂_nil_left_iff.1 alike
      generalize none : ([] : List Stretch) = otherHistory at otherCourse
      cases otherCourse with
      | start => exact ⟨same, .nil⟩
      | line _ _ => simp at none
  | line _ run ih =>
      obtain ⟨earlier, ⟨otherSession, line, otherTrace, otherOutcome⟩, rfl, earlierAlike, matching⟩ :=
        forall₂_concat_left alike
      obtain ⟨rfl, lineAlike⟩ := matching
      obtain ⟨earlierCourse, rfl, _, _, otherRun⟩ := otherCourse.of_concat
      obtain ⟨sameNow, undisturbed⟩ := ih earlierCourse earlierAlike
      have lineUndisturbed := undisturbed_of_runs run otherRun sameNow lineAlike
      exact ⟨lineUndisturbed.surroundings,
        List.rel_append undisturbed (.cons lineUndisturbed .nil)⟩

end Lines

/-! ## A session with jobs and one without -/

namespace Request

/-- Answers under which every path is a directory and every child in the foreground leaves with
code 3. -/
def calmly : (call : Request) → call.Answer
  | .pathExists _ => true
  | .canonicalize path => .ok path
  | .isDirectory _ => true
  | .pipe => .ok ⟨3, 4⟩
  | .close _ => ()
  | .fork _ => .ok 1
  | .wait _ => .ok (.exited 3)
  | .poll _ => .ok .stillAlive

/-- The same answers, but for what is told about jobs. -/
def busily (told : Pid → WaitStatus) : (call : Request) → Unit → Option (call.Answer × Unit)
  | .poll pid, _ => some (.ok (told pid), ())
  | .wait pid, _ => some (calmly (.wait pid), ())
  | .fork child, _ => some (calmly (.fork child), ())
  | .close descriptor, _ => some (calmly (.close descriptor), ())
  | .pipe, _ => some (calmly .pipe, ())
  | .isDirectory path, _ => some (calmly (.isDirectory path), ())
  | .canonicalize path, _ => some (calmly (.canonicalize path), ())
  | .pathExists path, _ => some (calmly (.pathExists path), ())

/-- The system that answers so. -/
def Busily (told : Pid → WaitStatus) (call : Request) (before : Unit) (answer : call.Answer)
    (after : Unit) : Prop :=
  busily told call before = some (answer, after)

theorem Busily.eq_calmly {told : Pid → WaitStatus} {call : Request} {before after : Unit}
    {answer : call.Answer} (answered : Busily told call before answer after) (calm : ¬ call.IsPoll) :
    answer = calmly call := by
  unfold Busily at answered
  cases call with
  | poll pid => exact absurd trivial calm
  | _ => exact (Prod.mk.inj (Option.some.inj answered)).1.symm

end Request

theorem calm_of_busily {told : Pid → WaitStatus} {program : Shell Session.Outcome}
    {trace : Shell.Trace} {outcome : Session.Outcome} {state final : Unit}
    (run : Runs (Request.Busily told) program state trace outcome final) :
    ∀ event ∈ foreground trace, event.answer = Request.calmly event.call := by
  intro event mem
  obtain ⟨mem, calm⟩ := List.mem_filter.1 mem
  obtain ⟨_, _, answered⟩ := run.answered event mem
  exact answered.eq_calmly (by simpa using calm)

/-- One of two jobs is gone, which is told in one session; in the other one there are no jobs. -/
theorem Session.Course.undisturbed_busy :
    let told : Pid → WaitStatus := fun pid => if pid = 7 then .exited 5 else .stillAlive
    let quiet : Pid → WaitStatus := fun _ => .stillAlive
    let place : Surroundings := ⟨Path.ofText "/", []⟩
    ∃ history otherHistory last otherLast,
      Course (Request.Busily told) ⟨place, [⟨7, true⟩, ⟨8, true⟩]⟩ history last ∧
      Course (Request.Busily quiet) ⟨place, []⟩ otherHistory otherLast ∧
      history.map Stretch.line = ["b &", "c"] ∧ last.jobs = [⟨8, true⟩, ⟨1, true⟩] ∧
      otherLast.jobs = [⟨1, true⟩] ∧
      history.map (fun stretch => stretch.outcome.notices) = [[.started 1], [.terminated 5]] ∧
      otherHistory.map (fun stretch => stretch.outcome.notices) = [[.started 1], []] ∧
      last.toSurroundings = otherLast.toSurroundings ∧
      List.Forall₂ (Undisturbed (Request.Busily told) (Request.Busily quiet)) history
        otherHistory := by
  intro told quiet place
  have sent : ((⟨place, [⟨7, true⟩, ⟨8, true⟩]⟩ : Session).runLine "b &").runWith
      (Request.busily told) 1 () =
        some (⟨⟨place, [⟨7, true⟩, ⟨8, true⟩, ⟨1, true⟩]⟩, .proceed, [.started 1], none⟩, ()) := by
    decide +kernel
  have ran : ((⟨place, [⟨7, true⟩, ⟨8, true⟩, ⟨1, true⟩]⟩ : Session).runLine "c").runWith
      (Request.busily told) 1 () =
        some (⟨⟨place, [⟨8, true⟩, ⟨1, true⟩]⟩, .proceed, [.terminated 5], some (.exitCode 3)⟩, ()) := by
    decide +kernel
  have otherSent : ((⟨place, []⟩ : Session).runLine "b &").runWith (Request.busily quiet) 1 () =
      some (⟨⟨place, [⟨1, true⟩]⟩, .proceed, [.started 1], none⟩, ()) := by
    decide +kernel
  have otherRan : ((⟨place, [⟨1, true⟩]⟩ : Session).runLine "c").runWith (Request.busily quiet) 1 () =
      some (⟨⟨place, [⟨1, true⟩]⟩, .proceed, [], some (.exitCode 3)⟩, ()) := by
    decide +kernel
  have performs (told : Pid → WaitStatus) : ∀ call state answer after,
      Request.busily told call state = some (answer, after) →
        Request.Busily told call state answer after :=
    fun _ _ _ _ performed => performed
  obtain ⟨_, sent⟩ := runs_of_runWith (performs told) sent
  obtain ⟨_, ran⟩ := runs_of_runWith (performs told) ran
  obtain ⟨_, otherSent⟩ := runs_of_runWith (performs quiet) otherSent
  obtain ⟨_, otherRan⟩ := runs_of_runWith (performs quiet) otherRan
  have course := (Course.start.line sent).line ran
  have otherCourse := (Course.start.line otherSent).line otherRan
  refine ⟨_, _, _, _, course, otherCourse, rfl, rfl, rfl, rfl, rfl, ?_⟩
  refine Session.Course.undisturbed course otherCourse rfl ?_
  refine .cons ⟨rfl, ?_⟩ (.cons ⟨rfl, ?_⟩ .nil)
  · exact answeredAlike_of_function (calm_of_busily sent) (calm_of_busily otherSent)
  · exact answeredAlike_of_function (calm_of_busily ran) (calm_of_busily otherRan)

end LineShell
