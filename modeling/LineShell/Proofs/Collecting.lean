/-
# LineShell.Proofs.Collecting -- when jobs are collected, and what is said about them

A line collects jobs as its last action, by one drain of the registry, after it has
waited for the children that it started itself.  Two kinds of lines are exempt
(`Session.Exempt`): `cd`, and a line that sends a single command to the background.
These poll nothing and remove nothing.

Nothing is assumed of the system.  What a drain collects is what the polls were told
(`Polled`, `drained`), and a job stays only when its last poll was told that it is
not gone.  So a job that was gone when the drain began is collected, provided that
the system never tells of a child that is gone that it is not (`Telling`); the
system of `Family` is like that (`Family.telling`).

`Session.runLine_collects` puts this together for a whole line: where it drains, what
the drain finds, and what is written about it.
-/
import LineShell.Proofs.Accounts
import LineShell.Proofs.Moving
import LineShell.Proofs.Pairing

namespace LineShell

set_option autoImplicit false

open Program

section

variable {σ : Type} {step : (call : Request) → σ → call.Answer → σ → Prop} {state final : σ}
variable {trace early late : Shell.Trace}

/-! ## Waiting for what was started -/

/-- Every child that was started is waited for later on, until there is an answer. -/
def Waited : Shell.Trace → Prop
  | [] => True
  | event :: rest =>
      (∀ child pid, event = ⟨.fork child, .ok pid⟩ →
        ∃ answer, ⟨.wait pid, answer⟩ ∈ rest ∧ Job.undecided answer = false) ∧ Waited rest

theorem Waited.append (first : Waited early) (second : Waited late) : Waited (early ++ late) := by
  induction early with
  | nil => exact second
  | cons event rest ih =>
      refine ⟨fun child pid started => ?_, ih first.2⟩
      obtain ⟨answer, found, decided⟩ := first.1 child pid started
      exact ⟨answer, List.mem_append_left late found, decided⟩

theorem waited_of_no_fork (none : ∀ event ∈ trace, ∀ child, event.call ≠ .fork child) :
    Waited trace := by
  induction trace with
  | nil => trivial
  | cons event rest ih =>
      obtain ⟨head, tail⟩ := List.forall_mem_cons.1 none
      refine ⟨?_, ih tail⟩
      rintro child pid rfl
      exact absurd rfl (head child)

/-- A trace that begins with a start has waited when the rest has waited for this child too. -/
theorem waited_fork {child : Child} {answer : Except Errno Pid} (rest : Waited trace)
    (asked : ∀ pid, answer = .ok pid →
      ∃ answer, ⟨.wait pid, answer⟩ ∈ trace ∧ Job.undecided answer = false) :
    Waited (⟨.fork child, answer⟩ :: trace) := by
  refine ⟨fun other pid started => ?_, rest⟩
  cases started
  exact asked pid rfl

theorem waited_of_locate {name : String} {surroundings : Surroundings} {found : Except NotFound Path}
    (run : Runs step (Shell.locate name surroundings) state trace found final) : Waited trace := by
  refine waited_of_no_fork fun event mem child forked => ?_
  have test : event.call.IsTest := (locate_asks name surroundings).runs run event mem
  rw [forked] at test
  exact test

theorem Job.Awaits.waited {pid : Pid} {result : Except Errno Int}
    (awaits : Job.Awaits pid trace result) :
    Waited trace ∧ ∃ answer, ⟨.wait pid, answer⟩ ∈ trace ∧ Job.undecided answer = false := by
  induction awaits with
  | again _ _ ih =>
      obtain ⟨waited, answer, found, decided⟩ := ih
      exact ⟨⟨nofun, waited⟩, answer, List.mem_cons_of_mem _ found, decided⟩
  | @settled answer result settled =>
      exact ⟨⟨nofun, trivial⟩, answer, List.mem_cons_self, by simp [Job.undecided, settled]⟩

/-- A command in the foreground is waited for. -/
theorem waited_of_command {surroundings : Surroundings} {command : Command}
    {result : Except LaunchError Launched}
    (run : Runs step (Launch.command surroundings command false) state trace result final) :
    Waited trace ∧ ∀ job, result ≠ .ok (.started job) := by
  unfold Launch.command at run
  obtain ⟨early, late, middle, found, rfl, looked, run⟩ := run.of_bind
  suffices rest : Waited late ∧ ∀ job, result ≠ .ok (.started job) from
    ⟨(waited_of_locate looked).append rest.1, rest.2⟩
  cases found with
  | error error =>
      obtain ⟨rfl, rfl, _⟩ := run.of_pure
      exact ⟨trivial, nofun⟩
  | ok program =>
      simp only at run
      split at run
      · obtain ⟨rfl, rfl, _⟩ := run.of_pure
        exact ⟨trivial, nofun⟩
      · obtain ⟨answer, late, _, rfl, _, run⟩ := runs_spawn_bind.1 run
        cases answer with
        | error errno =>
            obtain ⟨rfl, rfl, _⟩ := run.of_pure
            exact ⟨waited_fork trivial nofun, nofun⟩
        | ok pid =>
            obtain ⟨early, late, middle, waited, rfl, asked, run⟩ := Runs.of_bind run
            obtain ⟨awaited, answered⟩ := asked.awaits.waited
            have ended : late = [] ∧ ∀ job, result ≠ .ok (.started job) := by
              cases waited <;> obtain ⟨rfl, rfl, _⟩ := run.of_pure <;> exact ⟨rfl, nofun⟩
            obtain ⟨rfl, unstarted⟩ := ended
            rw [List.append_nil]
            refine ⟨waited_fork awaited ?_, unstarted⟩
            rintro _ ⟨⟩
            exact answered

/-- Both stages of a pipe are waited for, and the left one also if the right one was not started. -/
theorem Launch.Paired.waited {left right : Image} {result : Except LaunchError Int}
    (paired : Launch.Paired left right trace result) : Waited trace := by
  cases paired with
  | unpiped errno => exact ⟨nofun, trivial⟩
  | unstarted errno => exact ⟨nofun, waited_fork ⟨nofun, nofun, trivial⟩ nofun⟩
  | @alone ends pid waits result errno first =>
      obtain ⟨waited, answer, found, decided⟩ := first.waited
      refine ⟨nofun, waited_fork (waited_fork ⟨nofun, nofun, waited⟩ nofun) ?_⟩
      rintro _ ⟨⟩
      exact ⟨answer, by simp [found], decided⟩
  | @both ends pid other early late firstResult secondResult first second =>
      obtain ⟨waited, answer, found, decided⟩ := first.waited
      obtain ⟨alsoWaited, alsoAnswer, alsoFound, alsoDecided⟩ := second.waited
      refine ⟨nofun, waited_fork (waited_fork ⟨nofun, nofun, waited.append alsoWaited⟩ ?_) ?_⟩
      · rintro _ ⟨⟩
        exact ⟨alsoAnswer, by simp [alsoFound], alsoDecided⟩
      · rintro _ ⟨⟩
        exact ⟨answer, by simp [found], decided⟩

theorem waited_of_pipe {surroundings : Surroundings} {left right : Command}
    {result : Except LaunchError Int}
    (run : Runs step (Launch.pipe surroundings left right) state trace result final) :
    Waited trace := by
  unfold Launch.pipe at run
  split at run
  · obtain ⟨rfl, _⟩ := run.of_pure
    trivial
  · obtain ⟨_, _, _, _, rfl, leftLooked, run⟩ := run.of_bind
    obtain ⟨_, _, _, _, rfl, rightLooked, run⟩ := run.of_bind
    refine (waited_of_locate leftLooked).append ((waited_of_locate rightLooked).append ?_)
    split at run
    · obtain ⟨rfl, _⟩ := run.of_pure
      trivial
    · next first second _ =>
        have paired : Runs step (Launch.pair first second) _ _ result final := run
        exact paired.paired.waited

/-! ## What a drain tells -/

/-- What a poll is told about a job that is gone. -/
def Collected.ofEvent : Event Request Request.Answer → List Collected
  | ⟨.poll pid, answer⟩ => ofAnswer pid answer
  | _ => []

/-- A poll was told that the child is not gone. -/
def Unfinished (trace : Shell.Trace) (pid : Pid) : Prop :=
  ∃ status : WaitStatus, ⟨.poll pid, .ok status⟩ ∈ trace ∧ status.code = none

/-- What a round of polls has been told, and why the jobs that are left are left. -/
structure Polled (kept : Registry) (trace : Shell.Trace) (result : Poll × Registry) : Prop where
  told : Collected.ofPoll result.1 = trace.flatMap Collected.ofEvent
  left : Collected.ofPoll result.1 = [] →
    ∀ job ∈ result.2, job ∈ kept ∨ Unfinished trace job.pid

theorem Program.Runs.of_poll {pid : Pid} {answer : Except Errno WaitStatus}
    (run : Runs step (Shell.repeatedly (.poll pid) Registry.interrupted) state trace answer final) :
    trace.flatMap Collected.ofEvent = Collected.ofAnswer pid answer ∧ ⟨.poll pid, answer⟩ ∈ trace := by
  obtain ⟨earlier, rfl, _, before⟩ := run.of_insist
  refine ⟨?_, by simp⟩
  -- An interrupted poll has been told nothing.
  have silent : (earlier.map (Event.mk (.poll pid))).flatMap Collected.ofEvent = [] := by
    rw [List.flatMap_eq_nil_iff]
    intro event mem
    obtain ⟨reply, there, rfl⟩ := List.mem_map.1 mem
    have again : Registry.interrupted reply = true := before reply there
    rw [Registry.interrupted_iff.1 again]
    rfl
  rw [List.flatMap_append, silent]
  simp [Collected.ofEvent]

theorem polled_of_pollFrom {result : Poll × Registry} (rest : Registry) :
    ∀ (kept : Registry) {state : σ} {trace : Shell.Trace},
      Runs step (Registry.pollFrom kept rest) state trace result final → Polled kept trace result := by
  induction rest with
  | nil =>
      intro kept state trace run
      obtain ⟨rfl, rfl, _⟩ := run.of_pure
      refine ⟨?_, fun _ job mem => .inl mem⟩
      simp only
      split <;> rfl
  | cons job rest ih =>
      intro kept state trace run
      unfold Registry.pollFrom at run
      obtain ⟨early, late, middle, answer, rfl, asked, run⟩ := run.of_bind
      obtain ⟨told, there⟩ := asked.of_poll
      rcases answer with errno | status
      · obtain ⟨rest, left⟩ := ih kept run
        refine ⟨?_, fun nothing job mem => ?_⟩
        · rw [List.flatMap_append, told, rest]
          rfl
        · refine (left nothing job mem).imp id ?_
          rintro ⟨status, found, running⟩
          exact ⟨status, List.mem_append_right early found, running⟩
      · simp only at run
        split at run
        · next code final =>
            obtain ⟨rfl, rfl, _⟩ := run.of_pure
            have one : Collected.ofAnswer job.pid (.ok status) = [⟨job.pid, code⟩] := by
              simp [Collected.ofAnswer, Except.toOption, final]
            refine ⟨?_, fun nothing => by simp [Collected.ofPoll] at nothing⟩
            rw [List.append_nil, told, one]
            rfl
        · next running =>
            have none : Collected.ofAnswer job.pid (.ok status) = [] := by
              simp [Collected.ofAnswer, Except.toOption, running]
            obtain ⟨rest, left⟩ := ih (kept ++ [job]) run
            refine ⟨?_, fun nothing other mem => ?_⟩
            · rw [List.flatMap_append, told, rest, none]
              rfl
            · rcases left nothing other mem with before | ⟨status, found, running⟩
              · rcases List.mem_append.1 before with old | new
                · exact .inl old
                · obtain rfl := List.mem_singleton.1 new
                  exact .inr ⟨status, List.mem_append_left late there, running⟩
              · exact .inr ⟨status, List.mem_append_right early found, running⟩

/-- A drain is a round that reports nothing, after some that have reported one job each. -/
theorem drain_induction {motive : Registry → σ → Shell.Trace → List Collected → Registry → σ → Prop}
    (silent : ∀ {registry left state trace poll final},
      Runs step (Registry.pollOnce registry) state trace (poll, left) final →
        Collected.ofPoll poll = [] → motive registry state trace [] left final)
    (report : ∀ {registry rest left state middle final early late pid code collected},
      Runs step (Registry.pollOnce registry) state early (.terminated pid code, rest) middle →
        motive rest middle late collected left final →
          motive registry state (early ++ late) (⟨pid, code⟩ :: collected) left final)
    {registry left : Registry} {collected : List Collected}
    (run : Runs step registry.drain state trace (collected, left) final) :
    motive registry state trace collected left final := by
  induction fewer : registry.length using Nat.strong_induction_on
    generalizing registry state trace collected with
  | _ size ih =>
      rw [Registry.drain_eq] at run
      obtain ⟨early, late, middle, ⟨poll, rest⟩, rfl, polled, run⟩ := run.of_bind
      have shortens := (Registry.pollOnce_yields registry).runs polled
      have ended (nothing : Collected.ofPoll poll = [])
          (run : Runs step (pure ([], rest)) middle late (collected, left) final) :
          motive registry state (early ++ late) collected left final := by
        obtain ⟨rfl, same, rfl⟩ := run.of_pure
        cases same
        rw [List.append_nil]
        exact silent polled nothing
      cases poll with
      | terminated pid code =>
          obtain ⟨_, _, _, ⟨later, left'⟩, rfl, again, run⟩ := run.of_bind
          obtain ⟨rfl, same, rfl⟩ := run.of_pure
          cases same
          have shorter : rest.length < size := fewer ▸ shortens pid code rfl
          rw [List.append_nil]
          exact report polled (ih rest.length shorter again rfl)
      | noneReady => exact ended rfl run
      | noChildren => exact ended rfl run

/-- A drain collects what its polls were told, and every job that it leaves was not gone. -/
theorem drained {left : Registry} {collected : List Collected} (registry : Registry)
    (run : Runs step registry.drain state trace (collected, left) final) :
    collected = trace.flatMap Collected.ofEvent ∧ ∀ job ∈ left, Unfinished trace job.pid := by
  refine drain_induction (motive := fun _ _ trace collected left _ =>
    collected = trace.flatMap Collected.ofEvent ∧ ∀ job ∈ left, Unfinished trace job.pid) ?_ ?_ run
  · intro registry left state trace poll final polled nothing
    obtain ⟨told, jobs⟩ := polled_of_pollFrom registry [] polled
    refine ⟨nothing.symm.trans told, fun job mem => ?_⟩
    exact (jobs nothing job mem).resolve_left List.not_mem_nil
  · intro registry rest left state middle final early late pid code collected polled later
    obtain ⟨told, _⟩ := polled_of_pollFrom registry [] polled
    obtain ⟨others, unfinished⟩ := later
    constructor
    · rw [List.flatMap_append, ← told, ← others]
      rfl
    · intro job mem
      obtain ⟨status, found, running⟩ := unfinished job mem
      exact ⟨status, List.mem_append_right early found, running⟩

/-! ## Lines -/

/-- The lines that collect nothing: `cd`, and a single command that is sent to the background. -/
def Session.Exempt (line : String) : Prop :=
  (∃ argument, Builtin.ofLine? (textOf line) = some (.changeDirectory argument)) ∨
    ∃ command, Detached line command

/-- The system never tells of a child that is gone that it is not, and polling brings none back. -/
structure Telling (step : (call : Request) → σ → call.Answer → σ → Prop) (gone : Pid → σ → Prop) :
    Prop where
  stays : ∀ pid other before answer after, gone pid before → step (.poll other) before answer after →
    gone pid after
  tells : ∀ pid before status after, gone pid before → step (.poll pid) before (.ok status) after →
    status.code ≠ none

/-- A program first does its own work, and then collects the jobs of a session. -/
structure Collects (step : (call : Request) → σ → call.Answer → σ → Prop) (session : Session)
    (program : Shell Session.Outcome) (state : σ) (early : Shell.Trace) (middle : σ)
    (late : Shell.Trace) (collected : List Collected) (outcome : Session.Outcome) (final : σ) :
    Prop where
  /-- The work polls nothing. -/
  unpolled : ∀ event ∈ early, ¬ event.call.IsPoll
  /-- The work waits for what it has started. -/
  waited : Waited early
  /-- After the work only the collecting is left, and the jobs are those from before. -/
  reaches : Reaches step program state early
    (session.reapAndReturn outcome.flow outcome.complaint) middle
  drains : Runs step session.jobs.drain middle late (collected, outcome.session.jobs) final
  /-- The drain only polls, and collects what it is told. -/
  polls : ∀ event ∈ late, event.call.IsPoll
  told : collected = late.flatMap Collected.ofEvent
  /-- No job that was gone after the work is left. -/
  left : ∀ gone, Telling step gone → ∀ job ∈ outcome.session.jobs, ¬ gone job.pid middle
  /-- There is one line for each code above zero, in the order of the drain. -/
  output : outcome.output = String.join ((collected.filter fun child => 0 < child.code).map fun child =>
    "Background task terminated with exit code " ++ toString child.code ++ "\n")

variable {session : Session} {outcome : Session.Outcome}

/-- A job that is left was polled and told not to be gone, so it was not gone. -/
theorem not_gone_of_unfinished {gone : Pid → σ → Prop} (telling : Telling step gone)
    {registry : Registry} {result : List Collected × Registry} {pid : Pid}
    (run : Runs step registry.drain state trace result final) (unfinished : Unfinished trace pid) :
    ¬ gone pid state := by
  intro was
  obtain ⟨status, found, running⟩ := unfinished
  have stays : ∀ call before answer after, Request.IsPoll call → gone pid before →
      step call before answer after → gone pid after := by
    intro call before answer after poll still answered
    cases call with
    | poll other => exact telling.stays pid other before answer after still answered
    | _ => exact absurd poll not_false
  have answered := (drain_asks registry).answered was stays run _ found
  obtain ⟨_, before, after, still, told⟩ := answered
  exact telling.tells pid before status after still told running

theorem output_of_notices (collected : List Collected) (session : Session) (flow : Flow)
    (complaint : Option Complaint) :
    Session.Outcome.output ⟨session, flow, Session.collectionNotices collected, complaint⟩ =
      String.join ((collected.filter fun child => 0 < child.code).map fun child =>
        "Background task terminated with exit code " ++ toString child.code ++ "\n") := by
  simp only [Session.Outcome.output, Session.collectionNotices, List.map_map]
  rfl

/-- The run of a program ends by collecting the jobs of a session. -/
def EndsCollecting (step : (call : Request) → σ → call.Answer → σ → Prop) (session : Session)
    (program : Shell Session.Outcome) (state : σ) (trace : Shell.Trace) (outcome : Session.Outcome)
    (final : σ) : Prop :=
  ∃ early middle late collected, trace = early ++ late ∧
    Collects step session program state early middle late collected outcome final

/-- When the work of a line is done, only the collecting is left. -/
theorem collecting_of_reaches {program : Shell Session.Outcome} {flow : Flow}
    {complaint : Option Complaint} {middle : σ} (unpolled : ∀ event ∈ early, ¬ event.call.IsPoll)
    (waited : Waited early)
    (reached : Reaches step program state early (session.reapAndReturn flow complaint) middle)
    (run : Runs step (session.reapAndReturn flow complaint) middle late outcome final) :
    EndsCollecting step session program state (early ++ late) outcome final := by
  unfold Session.reapAndReturn Session.reap at run
  obtain ⟨_, _, _, ⟨notices, reaped⟩, rfl, collecting, last⟩ := run.of_bind
  obtain ⟨late, _, _, ⟨collected, left⟩, rfl, drains, paired⟩ := collecting.of_bind
  obtain ⟨rfl, same, rfl⟩ := paired.of_pure
  cases same
  obtain ⟨rfl, rfl, rfl⟩ := last.of_pure
  obtain ⟨told, unfinished⟩ := drained session.jobs drains
  have polls := (drain_asks session.jobs).runs drains
  refine ⟨early, middle, late, collected, by simp, unpolled, waited, reached, drains, polls, told, ?_,
    output_of_notices collected _ _ _⟩
  intro gone telling job mem
  exact not_gone_of_unfinished telling drains (unfinished job mem)

theorem collecting_of_bind {α : Type} {work : Shell α} {rest : α → Shell Session.Outcome} {given : α}
    {flow : Flow} {complaint : Option Complaint} {middle : σ}
    (unpolled : ∀ event ∈ early, ¬ event.call.IsPoll) (waited : Waited early)
    (worked : Runs step work state early given middle)
    (collecting : rest given = session.reapAndReturn flow complaint)
    (run : Runs step (rest given) middle late outcome final) :
    EndsCollecting step session (work >>= rest) state (early ++ late) outcome final := by
  have reached : Reaches step (work >>= rest) state (early ++ []) (rest given) middle :=
    worked.bind_reaches (.here _ middle)
  rw [collecting] at reached run
  rw [List.append_nil] at reached
  exact collecting_of_reaches unpolled waited reached run

theorem reapAndReturn_collecting {flow : Flow} {complaint : Option Complaint}
    (run : Runs step (session.reapAndReturn flow complaint) state trace outcome final) :
    EndsCollecting step session (session.reapAndReturn flow complaint) state trace outcome final := by
  have unpolled : ∀ event ∈ ([] : Shell.Trace), ¬ event.call.IsPoll := by simp
  have waited : Waited [] := trivial
  exact collecting_of_reaches unpolled waited (.here _ state) run

/-- Executing a command launches it, and registers the job if there is one. -/
theorem Program.Runs.of_execute {command : Command} {background : Bool}
    {result : Except LaunchError Launched} {kept : Session}
    (run : Runs step (session.execute command background) state trace (result, kept) final) :
    Runs step (Launch.command session.toSurroundings command background) state trace result final ∧
      ((∃ job, result = .ok (.started job) ∧ kept = session.register job) ∨
        (∀ job, result ≠ .ok (.started job)) ∧ kept = session) := by
  obtain ⟨early, _, _, launched, rfl, launching, stored⟩ := run.of_bind
  rcases launched with error | ⟨code | job⟩
  · obtain ⟨rfl, same, rfl⟩ := stored.of_pure
    cases same
    rw [List.append_nil]
    exact ⟨launching, .inr ⟨nofun, rfl⟩⟩
  · obtain ⟨rfl, same, rfl⟩ := stored.of_pure
    cases same
    rw [List.append_nil]
    exact ⟨launching, .inr ⟨nofun, rfl⟩⟩
  · obtain ⟨rfl, same, rfl⟩ := stored.of_pure
    cases same
    rw [List.append_nil]
    exact ⟨launching, .inl ⟨job, rfl, rfl⟩⟩

/-- A command in the foreground, launched or not. -/
theorem runAttached_collecting {command : Command}
    (run : Runs step (session.runAttached command) state trace outcome final) :
    EndsCollecting step session (session.runAttached command) state trace outcome final := by
  unfold Session.runAttached at run ⊢
  obtain ⟨early, late, _, ⟨result, kept⟩, rfl, executed, ending⟩ := run.of_bind
  obtain ⟨launching, registered⟩ := executed.of_execute
  obtain ⟨waited, unstarted⟩ := waited_of_command launching
  have unpolled := (command_asks_no_poll _ command false).runs launching
  obtain rfl : kept = session := by
    rcases registered with ⟨job, started, _⟩ | ⟨_, same⟩
    · exact absurd started (unstarted job)
    · exact same
  rcases result with error | ⟨code | job⟩
  · exact collecting_of_bind unpolled waited executed rfl ending
  · exact collecting_of_bind unpolled waited executed rfl ending
  · exact absurd rfl (unstarted job)

theorem runPipe_collecting {left right : Command}
    (run : Runs step (session.runPipe left right) state trace outcome final) :
    EndsCollecting step session (session.runPipe left right) state trace outcome final := by
  unfold Session.runPipe at run ⊢
  obtain ⟨early, late, _, result, rfl, launching, ending⟩ := run.of_bind
  have waited := waited_of_pipe launching
  have unpolled := (pipe_asks_no_poll _ left right).runs launching
  cases result with
  | ok code => exact collecting_of_bind unpolled waited launching rfl ending
  | error error => exact collecting_of_bind unpolled waited launching rfl ending

/-- A line that polls nothing and removes no job. -/
def Spares (session : Session) (trace : Shell.Trace) (outcome : Session.Outcome) : Prop :=
  (∀ event ∈ trace, ¬ event.call.IsPoll) ∧ session.jobs <+: outcome.session.jobs

theorem runDetached_spares {command : Command}
    (run : Runs step (session.runDetached command) state trace outcome final) :
    Spares session trace outcome := by
  unfold Session.runDetached at run
  obtain ⟨early, late, _, ⟨result, kept⟩, rfl, executed, ending⟩ := run.of_bind
  obtain ⟨launching, registered⟩ := executed.of_execute
  have unpolled := (command_asks_no_poll _ command true).runs launching
  have prefixed : session.jobs <+: kept.jobs := by
    rcases registered with ⟨job, _, rfl⟩ | ⟨_, rfl⟩
    · exact List.prefix_append _ _
    · exact List.prefix_rfl
  obtain ⟨rfl, same⟩ : late = [] ∧ outcome.session = kept := by
    rcases result with error | ⟨code | job⟩ <;> obtain ⟨rfl, rfl, _⟩ := ending.of_pure <;>
      exact ⟨rfl, rfl⟩
  rw [List.append_nil]
  exact ⟨unpolled, same ▸ prefixed⟩

theorem changeDirectory_spares {argument : String}
    (run : Runs step (session.runBuiltin (.changeDirectory argument)) state trace outcome final) :
    Spares session trace outcome := by
  obtain ⟨early, late, _, result, rfl, changed, last⟩ := Runs.of_bind run
  have unpolled : ∀ event ∈ early, ¬ event.call.IsPoll := by
    intro event mem polled
    have survey := (changeDirectory_asks session _).runs changed event mem
    generalize event.call = call at survey polled
    cases call <;> first | exact polled | exact survey
  rcases changed.of_changeDirectory with ⟨error, rfl⟩ | ⟨path, directory, _, rfl⟩
  · obtain ⟨rfl, rfl, _⟩ := last.of_pure
    rw [List.append_nil]
    exact ⟨unpolled, List.prefix_rfl⟩
  · obtain ⟨rfl, rfl, _⟩ := last.of_pure
    rw [List.append_nil]
    exact ⟨unpolled, List.prefix_rfl⟩

/-- A line that is no builtin collects, unless it is a single command for the background. -/
theorem runCommandLine_collecting {text : String}
    (run : Runs step (session.runCommandLine text) state trace outcome final) :
    ((∃ command, (Marked.ofLine text).background = true ∧
        Line.parse (Marked.ofLine text).rest = .ok (.simple command)) ∧ Spares session trace outcome) ∨
      (¬ ∃ command, (Marked.ofLine text).background = true ∧
        Line.parse (Marked.ofLine text).rest = .ok (.simple command)) ∧
        EndsCollecting step session (session.runCommandLine text) state trace outcome final := by
  unfold Session.runCommandLine at run ⊢
  generalize Marked.ofLine text = marked at run ⊢
  simp only at run ⊢
  generalize Line.parse marked.rest = parsed at run ⊢
  rcases parsed with error | command | ⟨left, right⟩
  · refine .inr ⟨?_, reapAndReturn_collecting run⟩
    rintro ⟨command, _, same⟩
    cases same
  · cases background : marked.background with
    | true =>
        simp only [background, if_true] at run
        exact .inl ⟨⟨command, rfl, rfl⟩, runDetached_spares run⟩
    | false =>
        simp only [background, Bool.false_eq_true, if_false] at run ⊢
        refine .inr ⟨?_, runAttached_collecting run⟩
        rintro ⟨other, sent, _⟩
        exact sent
  · refine .inr ⟨?_, runPipe_collecting run⟩
    rintro ⟨command, _, same⟩
    cases same

/-- A line collects jobs as its last action, after its own children have been waited for, unless it
is exempt; then it polls nothing and removes nothing. -/
theorem Session.runLine_collects (line : String)
    (run : Runs step (session.runLine line) state trace outcome final) :
    (Exempt line → (∀ event ∈ trace, ¬ event.call.IsPoll) ∧ session.jobs <+: outcome.session.jobs) ∧
      (¬ Exempt line → ∃ early middle late collected, trace = early ++ late ∧
        Collects step session (session.runLine line) state early middle late collected outcome
          final) := by
  cases recognised : Builtin.ofLine? (textOf line) with
  | some builtin =>
      rw [runLine_of_builtin recognised] at run ⊢
      cases builtin with
      | exit =>
          refine ⟨?_, fun _ => reapAndReturn_collecting run⟩
          rintro (⟨argument, same⟩ | ⟨command, free, _⟩)
          · rw [recognised] at same
            cases same
          · rw [recognised] at free
            cases free
      | changeDirectory argument =>
          refine ⟨fun _ => changeDirectory_spares run, fun required => ?_⟩
          exact absurd (.inl ⟨argument, recognised⟩) required
  | none =>
      rw [runLine_of_command recognised] at run ⊢
      rcases runCommandLine_collecting run with ⟨⟨command, sent⟩, spares⟩ | ⟨attached, collecting⟩
      · refine ⟨fun _ => spares, fun required => ?_⟩
        exact absurd (.inr ⟨command, recognised, sent⟩) required
      · refine ⟨?_, fun _ => collecting⟩
        rintro (⟨argument, same⟩ | ⟨command, _, sent⟩)
        · rw [recognised] at same
          cases same
        · exact absurd ⟨command, sent⟩ attached

end

/-! ## Children that have ended -/

namespace Family

variable {family : Family} {pid other : Pid} {drift : Family → Family → Prop}

/-- A change after which a child is not running makes no other child run. -/
theorem Running.of_mark {change : Offspring → Offspring}
    (stops : ∀ one, ¬ ((change one).takers = [] ∧ (change one).ending = none))
    (running : (family.mark other change).Running pid) : family.Running pid := by
  obtain ⟨later, mem, rightPid, free, unended⟩ := running
  obtain ⟨one, old, rfl⟩ := List.mem_map.1 mem
  split at rightPid
  · next marked =>
      rw [if_pos marked] at free unended
      exact absurd ⟨free, unended⟩ (stops one)
  · next unmarked =>
      rw [if_neg unmarked] at free unended
      exact ⟨one, old, rightPid, free, unended⟩

theorem Running.of_take {taker : Taker} (running : (family.take other taker).Running pid) :
    family.Running pid :=
  Running.of_mark (fun one stopped => by simp at stopped) running

theorem Running.of_meddles {after : Family} (meddles : family.Meddles after)
    (running : after.Running pid) : family.Running pid := by
  cases meddles with
  | ends ended =>
      cases ended with
      | ends fate _ => exact Running.of_mark (fun one stopped => by simp at stopped) running
  | steals _ => exact running.of_take

/-- Children that have ended, or whose status was taken, are gone, whatever else goes on. -/
theorem telling (meddles : ∀ before after, drift before after → Meddles before after) :
    Telling (Answers drift) fun pid family => ¬ family.Running pid := by
  have stopped_after {pid : Pid} {before middle : Family} (stopped : ¬ before.Running pid)
      (drifted : Relation.ReflTransGen drift before middle) : ¬ middle.Running pid :=
    drift_keeps (fun before after moved (stopped : ¬ before.Running pid) running =>
      stopped (Running.of_meddles (meddles before after moved) running)) drifted stopped
  constructor
  · rintro pid other before answer after stopped ⟨middle, drifted, looks⟩
    have stopped := stopped_after stopped drifted
    cases looks with
    | ended _ => exact fun running => stopped running.of_take
    | running _ _ => exact stopped
    | interrupted _ => exact stopped
    | nothing _ => exact stopped
  · rintro pid before status after stopped ⟨middle, drifted, looks⟩ unfinished
    have stopped := stopped_after stopped drifted
    exact stopped (looks.running_of_unfinished unfinished).2

/-- A child that is waited for ends, and no other. -/
def settleAwaited : Request → Family → Family
  | .wait pid, family => family.finish pid (.exited 0)
  | _, family => family

theorem settleAwaited_ends (call : Request) (family : Family) :
    Relation.ReflTransGen Ends family (family.settleAwaited call) := by
  cases call with
  | wait pid => exact settle_ends (.wait pid) family
  | _ => exact .refl

/-- Answer a call when the child that it waits for has ended. -/
def patiently (call : Request) (family : Family) : Option (call.Answer × Family) :=
  some (serve call (family.settleAwaited call))

theorem patiently_answers (call : Request) (family : Family) (answer : call.Answer) (after : Family)
    (answered : patiently call family = some (answer, after)) :
    Answers Ends call family answer after := by
  have served := Option.some.inj answered
  refine ⟨family.settleAwaited call, settleAwaited_ends call family, ?_⟩
  have serves := serves_serve call (family.settleAwaited call)
  rwa [served] at serves

/-- A job that left with code 5, one that is running, and one that left with code 0. -/
def mixed : Family :=
  let child : Child := ⟨⟨"a", none, [], ⟨NulFree.clip [], []⟩, none, none⟩, none⟩
  [⟨1, child, some (.exited 5), []⟩, ⟨2, child, none, []⟩, ⟨3, child, some (.exited 0), []⟩]

end Family

/-- A pipe collects the jobs that were gone, `&` or not, and reports the one that failed. -/
theorem Session.runLine_collects_piped :
    let session : Session := ⟨⟨Path.ofText "/", []⟩, [⟨1, true⟩, ⟨2, true⟩, ⟨3, true⟩]⟩
    ∃ trace outcome final,
      Runs (Family.Answers Family.Ends) (session.runLine "b | c &") Family.mixed trace outcome final ∧
      ¬ Exempt "b | c &" ∧ outcome.session.jobs = [⟨2, true⟩] ∧
      outcome.output = "Background task terminated with exit code 5\n" ∧
      ∃ early middle late collected, trace = early ++ late ∧
        Collects (Family.Answers Family.Ends) session (session.runLine "b | c &") Family.mixed early
          middle late collected outcome final ∧
        ∀ job ∈ outcome.session.jobs, middle.Running job.pid := by
  intro session
  have ran : ((session.runLine "b | c &").runWith Family.patiently 1 Family.mixed).map
      (fun last => (last.1.session.jobs, last.1.output)) =
        some ([⟨2, true⟩], "Background task terminated with exit code 5\n") := by
    decide +kernel
  obtain ⟨⟨outcome, final⟩, ran, summary⟩ := Option.map_eq_some_iff.1 ran
  obtain ⟨jobs, output⟩ := Prod.mk.inj summary
  obtain ⟨trace, run⟩ := runs_of_runWith Family.patiently_answers ran
  have plain : Builtin.ofLine? (textOf "b | c &") = none := by decide +kernel
  have piped : (Line.parse (Marked.ofLine (textOf "b | c &")).rest).toOption =
      some (.pipe ⟨"b", [], .none⟩ ⟨"c", [], .none⟩) := by decide +kernel
  have required : ¬ Exempt "b | c &" := by
    rintro (⟨argument, same⟩ | ⟨command, _, _, parsed⟩)
    · rw [plain] at same
      cases same
    · rw [parsed] at piped
      cases piped
  obtain ⟨early, middle, late, collected, split, collects⟩ :=
    (Session.runLine_collects "b | c &" run).2 required
  have telling : Telling (Family.Answers Family.Ends) fun pid family => ¬ family.Running pid :=
    Family.telling fun _ _ ended => .ends ended
  refine ⟨trace, outcome, final, run, required, jobs, output, early, middle, late, collected, split,
    collects, fun job mem => ?_⟩
  exact not_not.1 (collects.left _ telling job mem)

end LineShell
