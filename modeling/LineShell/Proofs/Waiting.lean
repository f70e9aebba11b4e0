/-
# LineShell.Proofs.Waiting -- which children the shell waits for, and which ones it leaves alone

The calls so far are kept in a `Ledger`: which children were started, how many of them have
been waited for to the end, and which registered jobs have not been found gone.
`Ledger.Permits` says which calls a line may make then.  A child is started for each
command, in order; a wait that blocks names the first child that has not been waited for;
a poll names a job that is still registered.  `Orderly` follows the ledger through a
program, one lemma for each part of the shell, so it holds wherever a line can come to and
whatever the system answers (`Session.Waits`).  Polling, draining and collecting by
themselves only poll what is registered (`PollsRegistered`).

On a family of children this has two consequences (`LeavesAlone`).  Anything may happen
between the calls: children end, and others take their statuses.  But no call changes a
child that was there before and is not registered, and no wait blocks for a child that was
there before, since a new child does not get the pid of one whose status is still there.
-/
import LineShell.Proofs.Errands
import LineShell.Proofs.Refusing

namespace LineShell

set_option autoImplicit false

open Program

/-! ## What has been answered so far -/

/-- What the calls so far tell about children: those that were started, in order, how many of them
have been waited for to the end, and the registered ones that have not been found gone. -/
structure Ledger where
  started : List Pid
  settled : Nat
  pending : List Pid
  deriving DecidableEq

namespace Ledger

/-- Nothing has been asked. -/
def opened (registered : List Pid) : Ledger :=
  ⟨[], 0, registered⟩

/-- Write down one more call with its answer. -/
def enter (ledger : Ledger) : (call : Request) → call.Answer → Ledger
  | .fork _, .ok pid => { ledger with started := ledger.started ++ [pid] }
  | .wait _, answer =>
      if Job.undecided answer then ledger else { ledger with settled := ledger.settled + 1 }
  | .poll pid, answer =>
      if Job.undecided answer then ledger else { ledger with pending := ledger.pending.erase pid }
  | .fork _, .error _ => ledger
  | .pathExists _, _ => ledger
  | .canonicalize _, _ => ledger
  | .isDirectory _, _ => ledger
  | .pipe, _ => ledger
  | .close _, _ => ledger

/-- The ledger after some calls, for a registry with these pids. -/
def after (registered : List Pid) (trace : Shell.Trace) : Ledger :=
  trace.foldl (fun ledger event => ledger.enter event.call event.answer) (opened registered)

variable {registered : List Pid} {trace : Shell.Trace}

theorem after_concat (call : Request) (answer : call.Answer) :
    after registered (trace ++ [⟨call, answer⟩]) = (after registered trace).enter call answer := by
  rw [after, List.foldl_append]
  rfl

theorem enter_pending_subset (ledger : Ledger) (call : Request) (answer : call.Answer) :
    (ledger.enter call answer).pending ⊆ ledger.pending := by
  cases call with
  | poll pid =>
      simp only [enter]
      split
      · exact fun _ mem => mem
      · exact List.erase_subset
  | wait pid =>
      simp only [enter]
      split <;> exact fun _ mem => mem
  | fork child => cases answer <;> exact fun _ mem => mem
  | _ => exact fun _ mem => mem

/-- Polls only ever take pids away. -/
theorem after_pending_subset (trace : Shell.Trace) : (after registered trace).pending ⊆ registered := by
  induction trace using List.reverseRecOn with
  | nil => exact fun _ mem => mem
  | append_singleton trace event ih =>
      rw [after_concat]
      exact fun pid mem => ih (enter_pending_subset _ _ _ mem)

end Ledger

/-! ## Which calls are in order -/

namespace Request

/-- The call is not about children. -/
def IsQuiet : Request → Prop
  | .fork _ => False
  | .wait _ => False
  | .poll _ => False
  | _ => True

/-- What a wait is given: the number of a process, where 0 and the numbers below it would be a group
or all children. -/
def waited? : Request → Option Int
  | .wait pid => some pid.number
  | .poll pid => some pid.number
  | _ => none

theorem waited?_eq_some_iff {call : Request} {number : Int} :
    call.waited? = some number ↔
      ∃ pid : Pid, (call = .wait pid ∨ call = .poll pid) ∧ (pid.number : Int) = number := by
  cases call <;> simp [waited?]

theorem IsTest.isQuiet {call : Request} (test : call.IsTest) : call.IsQuiet := by
  cases call <;> first | exact trivial | exact test

theorem IsSurvey.isQuiet {call : Request} (survey : call.IsSurvey) : call.IsQuiet := by
  cases call <;> first | exact trivial | exact survey

end Request

theorem Pid.waited_pos (pid : Pid) : 0 < (pid.number : Int) :=
  Int.natCast_pos.2 pid.positive

theorem Ledger.enter_of_isQuiet (ledger : Ledger) {call : Request} (quiet : call.IsQuiet)
    (answer : call.Answer) : ledger.enter call answer = ledger := by
  cases call <;> first | rfl | exact absurd quiet not_false

/-- The commands that an errand starts, in this order. -/
def Errand.commands : Errand → List Command
  | .send command => [command]
  | .run command => [command]
  | .join left right => [left, right]
  | _ => []

/-- Whether the errand waits for what it starts. -/
def Errand.Waits : Errand → Prop
  | .send _ => False
  | _ => True

/-- The calls that an errand may make when this has been answered before. -/
def Ledger.Permits (ledger : Ledger) (surroundings : Surroundings) (errand : Errand) : Request → Prop
  | .fork child => ∃ command program, errand.commands[ledger.started.length]? = some command ∧
      child.image.Carries surroundings command program
  | .wait pid => errand.Waits ∧ ledger.started[ledger.settled]? = some pid
  | .poll pid => errand.collects = true ∧ pid ∈ ledger.pending
  | _ => True

section Orderly

variable {α β σ : Type} {step : (call : Request) → σ → call.Answer → σ → Prop}

/-- The ledger after the calls on record. -/
def Ledger.Stands (registered : List Pid) (ledger : Ledger) (state : σ × Shell.Trace) : Prop :=
  after registered state.2 = ledger

/-- From a ledger on, the program makes only permitted calls, and ends in `post`. -/
def Orderly (step : (call : Request) → σ → call.Answer → σ → Prop) (registered : List Pid)
    (permits : Ledger → Request → Prop) (program : Shell α) (post : α → Ledger → Prop)
    (ledger : Ledger) : Prop :=
  ∀ state : σ × Shell.Trace, Ledger.Stands registered ledger state →
    Heeds (Recorded step) (fun call state => permits (Ledger.after registered state.2) call) program
      (fun value final => post value (Ledger.after registered final.2)) state

variable {registered : List Pid} {permits : Ledger → Request → Prop} {ledger : Ledger}

theorem orderly_pure {value : α} {post : α → Ledger → Prop} (holds : post value ledger) :
    Orderly step registered permits (pure value) post ledger := by
  rintro state rfl
  exact heeds_pure holds

theorem Orderly.bind {program : Shell α} {rest : α → Shell β} {post : β → Ledger → Prop}
    (first : Orderly step registered permits program
      (fun value => Orderly step registered permits (rest value) post) ledger) :
    Orderly step registered permits (program >>= rest) post ledger := by
  intro state stands
  exact .bind ((first state stands).imp fun value final holds => holds final rfl)

theorem Orderly.imp {program : Shell α} {post weaker : α → Ledger → Prop}
    (orderly : Orderly step registered permits program post ledger)
    (implied : ∀ value after, post value after → weaker value after) :
    Orderly step registered permits program weaker ledger :=
  fun state stands => (orderly state stands).imp fun value _ => implied value _

/-- Go on from a ledger that is known. -/
theorem Orderly.andThen {program : Shell α} {rest : α → Shell β} {post : β → Ledger → Prop}
    {next : Ledger}
    (first : Orderly step registered permits program (fun _ after => after = next) ledger)
    (later : ∀ value, Orderly step registered permits (rest value) post next) :
    Orderly step registered permits (program >>= rest) post ledger := by
  refine .bind (first.imp ?_)
  rintro value _ rfl
  exact later value

theorem Ledger.Stands.enter {before after : σ × Shell.Trace} {call : Request} {answer : call.Answer}
    (stands : Ledger.Stands registered ledger before) (served : Recorded step call before answer after) :
    Ledger.Stands registered (ledger.enter call answer) after := by
  unfold Ledger.Stands at stands ⊢
  rw [served.2, Ledger.after_concat, stands]

/-- Calls that are not about children change nothing in the ledger. -/
theorem quiet_orderly {program : Shell α} (asks : Asks Request.IsQuiet program)
    (may : ∀ call : Request, call.IsQuiet → permits ledger call) :
    Orderly step registered permits program (fun _ after => after = ledger) ledger := by
  intro state stands
  refine asks.heeds stands ?_ ?_
  · intro call before answer after quiet stands served
    have entered := Ledger.Stands.enter stands served
    rwa [Ledger.enter_of_isQuiet ledger quiet] at entered
  · intro call before quiet stands
    rw [show Ledger.after registered before.2 = ledger from stands]
    exact may call quiet

theorem fork_orderly {child : Child} {post : Except Errno Pid → Ledger → Prop}
    (may : permits ledger (.fork child)) (failed : ∀ errno, post (.error errno) ledger)
    (started : ∀ pid, post (.ok pid) { ledger with started := ledger.started ++ [pid] }) :
    Orderly step registered permits (Shell.system (.fork child)) post ledger := by
  rintro state rfl
  refine heeds_request may fun answer after served => ?_
  rw [served.2, Ledger.after_concat]
  cases answer with
  | error errno => exact failed errno
  | ok pid => exact started pid

/-- A child is waited for until it is settled. -/
theorem await_orderly {pid : Pid} (may : permits ledger (.wait pid)) :
    Orderly step registered permits (Job.await pid)
      (fun _ after => after = { ledger with settled := ledger.settled + 1 }) ledger := by
  intro state stands
  unfold Job.await
  refine .bind (heeds_insist (Ledger.Stands registered ledger) stands ?_ ?_)
  · intro before stands
    rw [show Ledger.after registered before.2 = ledger from stands]
    exact may
  · intro before answer after stands served
    have entered := Ledger.Stands.enter stands served
    split
    · next undecided => rwa [Ledger.enter, if_pos undecided] at entered
    · next decided =>
        rw [Ledger.enter, if_neg decided] at entered
        exact heeds_pure entered

/-! ## Launching -/

theorem spawn_orderly {child : Child} {background : Bool} {post : Except Errno Job → Ledger → Prop}
    (may : permits ledger (.fork child)) (failed : ∀ errno, post (.error errno) ledger)
    (started : ∀ pid,
      post (.ok ⟨pid, background⟩) { ledger with started := ledger.started ++ [pid] }) :
    Orderly step registered permits (Launch.spawn child background) post ledger := by
  unfold Launch.spawn
  exact .bind (fork_orderly may (fun errno => orderly_pure (failed errno))
    fun pid => orderly_pure (started pid))

variable {surroundings : Surroundings} {errand : Errand}

theorem Ledger.permits_of_isQuiet (ledger : Ledger) {call : Request} (quiet : call.IsQuiet) :
    ledger.Permits surroundings errand call := by
  cases call <;> first | exact trivial | exact absurd quiet not_false

theorem locate_orderly (name : String) :
    Orderly step registered (fun ledger => ledger.Permits surroundings errand)
      (Shell.locate name surroundings) (fun _ after => after = ledger) ledger :=
  quiet_orderly ((locate_asks name surroundings).imp fun _ => Request.IsTest.isQuiet)
    fun _ => ledger.permits_of_isQuiet

theorem close_orderly (descriptor : Descriptor) :
    Orderly step registered (fun ledger => ledger.Permits surroundings errand)
      (Shell.system (.close descriptor)) (fun _ after => after = ledger) ledger :=
  quiet_orderly (asks_request trivial) fun _ => ledger.permits_of_isQuiet

/-- A command is started alone, and waited for in the foreground only. -/
theorem command_orderly {command : Command} {background : Bool} (starts : errand.commands = [command])
    (waits : background = false → errand.Waits) :
    Orderly step registered (fun ledger => ledger.Permits surroundings errand)
      (Launch.command surroundings command background) (fun _ after => after.pending = registered)
      (Ledger.opened registered) := by
  unfold Launch.command
  refine (locate_orderly _).andThen fun found => ?_
  cases found with
  | error error => exact orderly_pure rfl
  | ok program =>
      simp only
      split
      · exact orderly_pure rfl
      · next image passed =>
          have carries := (Launch.image_checks surroundings command program).accepted image passed
          have may : (Ledger.opened registered).Permits surroundings errand (.fork ⟨image, none⟩) :=
            ⟨command, some program, by rw [starts]; rfl, carries⟩
          refine .bind (spawn_orderly may (fun errno => orderly_pure rfl) fun pid => ?_)
          cases background with
          | true => exact orderly_pure rfl
          | false =>
              refine (await_orderly ⟨waits rfl, rfl⟩).andThen fun waited => ?_
              cases waited <;> exact orderly_pure rfl

/-- The left stage is started before the right one, and waited for before it. -/
theorem stages_orderly {left right : Command} {first second : Image}
    {leftProgram rightProgram : Option Path} (ends : Request.Ends)
    (starts : errand.commands = [left, right]) (waits : errand.Waits)
    (leftCarries : first.Carries surroundings left leftProgram)
    (rightCarries : second.Carries surroundings right rightProgram) :
    Orderly step registered (fun ledger => ledger.Permits surroundings errand)
      (Launch.stages first second ends) (fun _ after => after.pending = registered)
      (Ledger.opened registered) := by
  unfold Launch.stages
  have leftMay : (Ledger.opened registered).Permits surroundings errand
      (.fork (Launch.leftChild first ends)) :=
    ⟨left, leftProgram, by rw [starts]; rfl, leftCarries⟩
  refine .bind (spawn_orderly leftMay (fun errno => ?_) fun leftPid => ?_)
  · refine (close_orderly _).andThen fun _ => (close_orderly _).andThen fun _ => ?_
    exact orderly_pure rfl
  · have rightMay : Ledger.Permits ⟨[leftPid], 0, registered⟩ surroundings errand
        (.fork (Launch.rightChild second ends)) :=
      ⟨right, rightProgram, by rw [starts]; rfl, rightCarries⟩
    refine .bind (spawn_orderly rightMay (fun errno => ?_) fun rightPid => ?_)
    · refine (close_orderly _).andThen fun _ => (close_orderly _).andThen fun _ => ?_
      refine (await_orderly ⟨waits, rfl⟩).andThen fun _ => ?_
      exact orderly_pure rfl
    · refine (close_orderly _).andThen fun _ => (close_orderly _).andThen fun _ => ?_
      refine (await_orderly ⟨waits, rfl⟩).andThen fun _ => ?_
      refine (await_orderly ⟨waits, rfl⟩).andThen fun waited => ?_
      cases waited <;> exact orderly_pure rfl

theorem pipe_orderly {left right : Command} (starts : errand.commands = [left, right])
    (waits : errand.Waits) :
    Orderly step registered (fun ledger => ledger.Permits surroundings errand)
      (Launch.pipe surroundings left right) (fun _ after => after.pending = registered)
      (Ledger.opened registered) := by
  unfold Launch.pipe
  split
  · exact orderly_pure rfl
  · next context prepared =>
      refine (locate_orderly _).andThen fun leftFound => ?_
      refine (locate_orderly _).andThen fun rightFound => ?_
      have carries := (Context.prepare_checks surroundings).accepted context prepared
      have checks := Launch.images_checks carries left right leftFound.toOption rightFound.toOption
      split
      · exact orderly_pure rfl
      · next first second passed =>
          obtain ⟨leftCarries, rightCarries⟩ := checks.accepted _ passed
          have asked : Asks Request.IsQuiet (Shell.system .pipe) := asks_request trivial
          refine (quiet_orderly asked fun _ => Ledger.permits_of_isQuiet _).andThen fun made => ?_
          cases made with
          | error errno => exact orderly_pure rfl
          | ok ends => exact stages_orderly ends starts waits leftCarries rightCarries

/-! ## Polling -/

/-- A job is polled until there is an answer. -/
theorem poll_orderly {pid : Pid} (may : permits ledger (.poll pid)) :
    Orderly step registered permits (Shell.repeatedly (.poll pid) Registry.interrupted)
      (fun answer after => Registry.interrupted answer = false ∧
        after = ledger.enter (.poll pid) answer) ledger := by
  intro state stands
  refine heeds_insist (Ledger.Stands registered ledger) stands ?_ ?_
  · intro before stands
    rw [show Ledger.after registered before.2 = ledger from stands]
    exact may
  · intro before answer after stands served
    have entered := Ledger.Stands.enter stands served
    split
    · next again =>
        -- Nothing was told, so nothing is entered.
        obtain rfl := Registry.interrupted_iff.1 again
        exact entered
    · next usable => exact ⟨Bool.not_eq_true _ ▸ usable, entered⟩

/-- A round of polls asks for registered jobs only, and the ledger has those that are left. -/
theorem pollFrom_orderly (may : ∀ (ledger : Ledger) (pid : Pid), pid ∈ ledger.pending →
      permits ledger (.poll pid)) (rest : Registry) :
    ∀ (kept : Registry) (ledger : Ledger), (Registry.pids (kept ++ rest)).Perm ledger.pending →
      Orderly step registered permits (Registry.pollFrom kept rest)
        (fun result after => (Registry.pids result.2).Perm after.pending) ledger := by
  induction rest with
  | nil =>
      intro kept ledger same
      rw [List.append_nil] at same
      exact orderly_pure same
  | cons job rest ih =>
      intro kept ledger same
      have known : job.pid ∈ ledger.pending := same.subset (by simp)
      have fewer : (Registry.pids (kept ++ rest)).Perm (ledger.pending.erase job.pid) := by
        have front : (Registry.pids (kept ++ job :: rest)).Perm
            (job.pid :: Registry.pids (kept ++ rest)) := by
          simp [Registry.pids]
        have erased := (front.symm.trans same).erase job.pid
        rwa [List.erase_cons_head] at erased
      unfold Registry.pollFrom
      refine .bind ((poll_orderly (may ledger job.pid known)).imp ?_)
      rintro answer _ ⟨usable, rfl⟩
      rcases answer with errno | status
      · have told : ¬ Job.undecided (.error errno) = true := by
          intro untold
          rw [Job.undecided_error_iff.1 untold] at usable
          exact absurd usable (by simp [Registry.interrupted])
        refine ih kept _ ?_
        rwa [Ledger.enter, if_neg told]
      · cases final : status.code with
        | some code =>
            have told : ¬ Job.undecided (.ok status) = true := by
              rw [Job.undecided_ok, final]
              exact Bool.false_ne_true
            simp only [final]
            refine orderly_pure ?_
            rwa [Ledger.enter, if_neg told]
        | none =>
            have untold : Job.undecided (.ok status) = true := by
              rw [Job.undecided_ok, final]
              rfl
            simp only [final]
            refine ih (kept ++ [job]) _ ?_
            rwa [Ledger.enter, if_pos untold, List.append_assoc]

theorem drainWithin_orderly (may : ∀ (ledger : Ledger) (pid : Pid), pid ∈ ledger.pending →
      permits ledger (.poll pid)) (limit : Nat) :
    ∀ (registry : Registry) (ledger : Ledger), registry.pids.Perm ledger.pending →
      Orderly step registered permits (Registry.drainWithin limit registry) (fun _ _ => True)
        ledger := by
  induction limit with
  | zero => exact fun _ _ _ => orderly_pure trivial
  | succ limit ih =>
      intro registry ledger same
      unfold Registry.drainWithin
      refine .bind ((pollFrom_orderly may registry [] ledger same).imp ?_)
      rintro ⟨poll, left⟩ after leftSame
      cases poll with
      | terminated pid code =>
          exact .bind ((ih left after leftSame).imp fun _ _ _ => orderly_pure trivial)
      | noneReady => exact orderly_pure trivial
      | noChildren => exact orderly_pure trivial

theorem drain_orderly {registry : Registry} (may : ∀ (ledger : Ledger) (pid : Pid),
      pid ∈ ledger.pending → permits ledger (.poll pid)) (same : registry.pids.Perm ledger.pending) :
    Orderly step registered permits registry.drain (fun _ _ => True) ledger :=
  drainWithin_orderly may _ registry ledger same

/-! ## Lines -/

/-- The children of an errand are started and waited for in order. -/
theorem work_orderly (errand : Errand) (surroundings : Surroundings) :
    Orderly step registered (fun ledger => ledger.Permits surroundings errand)
      (errand.work surroundings) (fun _ after => after.pending = registered)
      (Ledger.opened registered) := by
  cases errand with
  | exit => exact orderly_pure rfl
  | complain error => exact orderly_pure rfl
  | move argument =>
      have asked : Asks Request.IsQuiet ((Session.start surroundings).changeDirectory
          (Session.directoryArgument argument)) :=
        (changeDirectory_asks _ _).imp fun _ => Request.IsSurvey.isQuiet
      refine (quiet_orderly asked fun _ => Ledger.permits_of_isQuiet _).andThen fun moved => ?_
      exact orderly_pure rfl
  | send command =>
      have alone : (Errand.send command).commands = [command] := rfl
      have unwaited : true = false → (Errand.send command).Waits := nofun
      exact .bind ((command_orderly alone unwaited).imp fun _ _ same => orderly_pure same)
  | run command =>
      have alone : (Errand.run command).commands = [command] := rfl
      exact .bind ((command_orderly alone fun _ => trivial).imp fun _ _ same => orderly_pure same)
  | join left right =>
      have both : (Errand.join left right).commands = [left, right] := rfl
      exact .bind ((pipe_orderly both trivial).imp fun _ _ same => orderly_pure same)

/-- The jobs are polled at the end, unless the errand collects nothing. -/
theorem conclude_orderly (session : Session) (work : Work)
    (same : ledger.pending = session.jobs.pids) :
    Orderly step registered (fun ledger => ledger.Permits surroundings errand)
      (session.conclude errand work) (fun _ _ => True) ledger := by
  unfold Session.conclude
  simp only
  split
  · next collects =>
      have may : ∀ (ledger : Ledger) (pid : Pid), pid ∈ ledger.pending →
          ledger.Permits surroundings errand (.poll pid) :=
        fun _ _ mem => ⟨collects, mem⟩
      unfold Session.reapAndReturn Session.reap
      refine .bind (.bind ((drain_orderly may (.of_eq same.symm)).imp fun _ _ _ => ?_))
      exact orderly_pure (orderly_pure trivial)
  · exact orderly_pure trivial

theorem runLine_orderly (session : Session) (line : String) :
    Orderly step session.jobs.pids
      (fun ledger => ledger.Permits session.toSurroundings (Errand.ofLine line))
      (session.runLine line) (fun _ _ => True) (Ledger.opened session.jobs.pids) := by
  rw [runLine_eq]
  exact .bind ((work_orderly _ _).imp fun work _ same => conclude_orderly session work same)

end Orderly

/-! ## What a line waits for -/

section

variable {α σ : Type} {step : (call : Request) → σ → call.Answer → σ → Prop} {state final : σ}
variable {trace : Shell.Trace} {call : Request} {registered : List Pid}

theorem Orderly.comesTo {permits : Ledger → Request → Prop} {program : Shell α}
    {post : α → Ledger → Prop}
    (orderly : Orderly step registered permits program post (Ledger.opened registered))
    (comes : ComesTo step program state trace call final) :
    permits (Ledger.after registered trace) call :=
  (orderly (state, []) rfl).comesTo comes

/-- No more children are started than there are commands, and no more are waited for. -/
structure Ledger.Bounded (ledger : Ledger) (commands : List Command) : Prop where
  settled : ledger.settled ≤ ledger.started.length
  started : ledger.started.length ≤ commands.length

/-- Which children a line starts, waits for and polls, for all answers that the system may give. -/
structure Session.Waits (step : (call : Request) → σ → call.Answer → σ → Prop) (session : Session)
    (line : String) : Prop where
  /-- There is one child for each command, in the order of the commands. -/
  starts : ∀ state trace child final,
    ComesTo step (session.runLine line) state trace (.fork child) final →
      ∃ command program,
        (Errand.ofLine line).commands[(Ledger.after session.jobs.pids trace).started.length]? =
            some command ∧
          child.image.Carries session.toSurroundings command program
  /-- A wait that blocks names the first child of the line that has not been waited for.  A command
  that is sent to the background is not waited for. -/
  waits : ∀ state trace pid final,
    ComesTo step (session.runLine line) state trace (.wait pid) final →
      (¬ ∃ command, Session.Detached line command) ∧
        (Ledger.after session.jobs.pids trace).started[
          (Ledger.after session.jobs.pids trace).settled]? = some pid
  /-- A poll names a job that is registered when it is asked for. -/
  polls : ∀ state trace pid final,
    ComesTo step (session.runLine line) state trace (.poll pid) final →
      ¬ Session.Exempt line ∧ pid ∈ (Ledger.after session.jobs.pids trace).pending
  /-- A command has at most one child that is waited for, and a pipe has at most two. -/
  few : ∀ state trace left final, Reaches step (session.runLine line) state trace left final →
    (Ledger.after session.jobs.pids trace).Bounded (Errand.ofLine line).commands
  /-- Every wait is for one process, which the line has started or which is registered.  Nothing is
  ever asked about a group or about any child. -/
  single : ∀ state trace call number final,
    ComesTo step (session.runLine line) state trace call final → call.waited? = some number →
      0 < number ∧ ∃ pid : Pid, pid.number = number ∧
        (pid ∈ (Ledger.after session.jobs.pids trace).started ∨ pid ∈ session.jobs.pids)

theorem waits_of_errand {errand : Errand} :
    errand.Waits ↔ ¬ ∃ command, errand = .send command := by
  cases errand <;> simp [Errand.Waits]

/-- What is permitted keeps within the bounds. -/
theorem Ledger.Bounded.enter {ledger : Ledger} {surroundings : Surroundings} {errand : Errand}
    (bounded : ledger.Bounded errand.commands) (permitted : ledger.Permits surroundings errand call)
    (answer : call.Answer) : (ledger.enter call answer).Bounded errand.commands := by
  cases call with
  | fork child =>
      cases answer with
      | error errno => exact bounded
      | ok pid =>
          obtain ⟨command, _, there, _⟩ := permitted
          obtain ⟨inside, _⟩ := List.getElem?_eq_some_iff.1 there
          refine ⟨?_, ?_⟩
          · simpa [Ledger.enter] using Nat.le_succ_of_le bounded.settled
          · simpa [Ledger.enter] using Nat.succ_le_of_lt inside
  | wait pid =>
      obtain ⟨inside, _⟩ := List.getElem?_eq_some_iff.1 permitted.2
      simp only [Ledger.enter]
      split
      · exact bounded
      · exact ⟨inside, bounded.started⟩
  | poll pid =>
      simp only [Ledger.enter]
      split <;> exact ⟨bounded.settled, bounded.started⟩
  | _ => exact bounded

theorem runLine_waits (step : (call : Request) → σ → call.Answer → σ → Prop) (session : Session)
    (line : String) : session.Waits step line where
  starts := by
    intro state trace child final comes
    exact (runLine_orderly session line).comesTo comes
  waits := by
    intro state trace pid final comes
    obtain ⟨waits, next⟩ := (runLine_orderly session line).comesTo comes
    refine ⟨?_, next⟩
    simpa only [waits_of_errand, Errand.ofLine_eq_send_iff] using waits
  polls := by
    intro state trace pid final comes
    obtain ⟨collects, pending⟩ := (runLine_orderly session line).comesTo comes
    refine ⟨fun exempt => ?_, pending⟩
    rw [(Errand.collects_ofLine line).2 exempt] at collects
    cases collects
  few := by
    intro state trace left final run
    refine run.keeps (fun _ trace => (Ledger.after session.jobs.pids trace).Bounded
      (Errand.ofLine line).commands) ⟨Nat.le_refl 0, Nat.zero_le _⟩ ?_
    intro record call before answer after comes bounded _
    rw [Ledger.after_concat]
    exact bounded.enter ((runLine_orderly session line).comesTo comes) answer
  single := by
    intro state trace call number final comes waited
    obtain ⟨pid, asks, named⟩ := Request.waited?_eq_some_iff.1 waited
    have permitted := (runLine_orderly session line).comesTo comes
    refine ⟨named ▸ pid.waited_pos, pid, named, ?_⟩
    rcases asks with rfl | rfl
    · exact .inl (List.mem_of_getElem? permitted.2)
    · exact .inr (Ledger.after_pending_subset trace permitted.2)

/-! ## Collecting alone -/

/-- What the program asks for when these pids are registered, for all answers that the system may
give. -/
structure PollsRegistered (step : (call : Request) → σ → call.Answer → σ → Prop)
    (registered : List Pid) (program : Shell α) : Prop where
  /-- It asks for jobs that are registered at that moment, without blocking, and for nothing else. -/
  polls : ∀ state trace call final, ComesTo step program state trace call final →
    ∃ pid, call = .poll pid ∧ pid ∈ (Ledger.after registered trace).pending
  /-- It does not ask for a group or for any child. -/
  single : ∀ state trace call number final, ComesTo step program state trace call final →
    call.waited? = some number → 0 < number ∧ ∃ pid ∈ registered, (pid.number : Int) = number

/-- The call polls a pending job. -/
def Ledger.Polls (ledger : Ledger) (call : Request) : Prop :=
  ∃ pid, call = .poll pid ∧ pid ∈ ledger.pending

theorem Ledger.polls_of_mem (ledger : Ledger) (pid : Pid) (mem : pid ∈ ledger.pending) :
    ledger.Polls (.poll pid) :=
  ⟨pid, rfl, mem⟩

theorem Orderly.pollsRegistered {program : Shell α} {post : α → Ledger → Prop}
    (orderly : Orderly step registered Ledger.Polls program post (Ledger.opened registered)) :
    PollsRegistered step registered program where
  polls := by
    intro state trace call final comes
    exact orderly.comesTo comes
  single := by
    intro state trace call number final comes waited
    obtain ⟨pid, rfl, pending⟩ := orderly.comesTo comes
    obtain rfl := Option.some.inj waited
    exact ⟨pid.waited_pos, pid, Ledger.after_pending_subset trace pending, rfl⟩

theorem pollOnce_polls (registry : Registry) :
    PollsRegistered step registry.pids registry.pollOnce :=
  (pollFrom_orderly Ledger.polls_of_mem registry [] (Ledger.opened registry.pids)
    (.refl _)).pollsRegistered

theorem drain_polls (registry : Registry) : PollsRegistered step registry.pids registry.drain :=
  (drain_orderly Ledger.polls_of_mem (.refl _)).pollsRegistered

theorem reap_polls (session : Session) : PollsRegistered step session.jobs.pids session.reap := by
  have orderly : Orderly step session.jobs.pids Ledger.Polls session.reap (fun _ _ => True)
      (Ledger.opened session.jobs.pids) := by
    unfold Session.reap
    exact .bind ((drain_orderly Ledger.polls_of_mem (.refl _)).imp fun _ _ _ => orderly_pure trivial)
  exact orderly.pollsRegistered

end

/-! ## Children that are left alone -/

/-- A wait names a child that was started on the way, and a poll a job that is registered. -/
def Ledger.Names (ledger : Ledger) : Request → Prop
  | .wait pid => pid ∈ ledger.started
  | .poll pid => pid ∈ ledger.pending
  | _ => True

/-- The program asks only for children of its own and for registered jobs. -/
def Careful {α σ : Type} (step : (call : Request) → σ → call.Answer → σ → Prop)
    (registered : List Pid) (program : Shell α) : Prop :=
  ∀ state trace call final, ComesTo step program state trace call final →
    (Ledger.after registered trace).Names call

theorem PollsRegistered.careful {α σ : Type} {step : (call : Request) → σ → call.Answer → σ → Prop}
    {registered : List Pid} {program : Shell α} (polls : PollsRegistered step registered program) :
    Careful step registered program := by
  intro state trace call final comes
  obtain ⟨pid, rfl, pending⟩ := polls.polls state trace call final comes
  exact pending

theorem Session.Waits.careful {σ : Type} {step : (call : Request) → σ → call.Answer → σ → Prop}
    {session : Session} {line : String} (waits : session.Waits step line) :
    Careful step session.jobs.pids (session.runLine line) := by
  intro state trace call final comes
  cases call with
  | wait pid => exact List.mem_of_getElem? (waits.waits _ _ _ _ comes).2
  | poll pid => exact (waits.polls _ _ _ _ comes).2
  | _ => trivial

namespace Family

/-- The answers of a system whose calls leave the child at a place as it is; between the calls
anything may happen. -/
def Spares (place : Nat) (call : Request) (before : Family) (answer : call.Answer)
    (after : Family) : Prop :=
  ∃ middle, Relation.ReflTransGen Meddles before middle ∧ Serves call middle answer after ∧
    after[place]? = middle[place]?

variable {before after : Family} {place : Nat} {one : Offspring} {pid : Pid} {call : Request}

theorem getElem?_take (there : before[place]? = some one) (other : one.takers = [] → one.pid ≠ pid)
    (taker : Taker) : (before.take pid taker)[place]? = before[place]? := by
  have unmarked : ¬ (one.pid = pid ∧ one.takers = []) := fun marked => other marked.2 marked.1
  simp [take, mark, there, unmarked]

theorem Looks.getElem? {answer : Except Errno WaitStatus} (looks : Looks pid before answer after)
    (there : before[place]? = some one) (other : one.takers = [] → one.pid ≠ pid) :
    after[place]? = before[place]? := by
  cases looks with
  | ended _ => exact getElem?_take there other .shell
  | running _ _ => rfl
  | interrupted _ => rfl
  | nothing _ => rfl

/-- A call changes a child only when it asks for it, and only before its status is taken. -/
theorem Serves.getElem? {answer : call.Answer} (serves : Serves call before answer after)
    (there : before[place]? = some one)
    (other : ∀ pid, call = .wait pid ∨ call = .poll pid → one.takers = [] → one.pid ≠ pid) :
    after[place]? = before[place]? := by
  cases call with
  | fork child =>
      obtain ⟨pid, _, _, rfl⟩ := serves
      obtain ⟨inside, _⟩ := List.getElem?_eq_some_iff.1 there
      rw [bear, List.getElem?_append_left inside]
  | wait pid => exact Looks.getElem? serves there (other pid (.inl rfl))
  | poll pid => exact Looks.getElem? serves there (other pid (.inr rfl))
  | pathExists path => rw [show after = before from serves]
  | canonicalize path => rw [show after = before from serves]
  | isDirectory path => rw [show after = before from serves]
  | pipe => rw [show after = before from serves.2]
  | close descriptor => rw [show after = before from serves]

/-- A child is still at its place, and as long as nobody has taken its status none of the children
that were started on the way has its pid. -/
def Keeps (one : Offspring) (place : Nat) (registered : List Pid) (now : Family)
    (trace : Shell.Trace) : Prop :=
  ∃ later, now[place]? = some later ∧ one.Ages later ∧
    (later.takers = [] → one.pid ∉ (Ledger.after registered trace).started)

variable {registered : List Pid} {trace : Shell.Trace}

theorem Keeps.meddles (keeps : Keeps one place registered before trace)
    (drifted : Relation.ReflTransGen Meddles before after) : Keeps one place registered after trace := by
  obtain ⟨later, found, aged, apart⟩ := keeps
  have ages : before.Ages after :=
    drift_keeps (fun _ _ last early => early.trans (.meddles last)) drifted (.refl before)
  obtain ⟨now, foundNow, agedNow⟩ := ages place later found
  refine ⟨now, foundNow, aged.trans agedNow, fun untaken => apart ?_⟩
  have earlier := agedNow.takers
  rw [untaken] at earlier
  exact List.prefix_nil.1 earlier

/-- A new child does not get the pid of one whose status nobody has taken. -/
theorem Keeps.serves (keeps : Keeps one place registered before trace) {answer : call.Answer}
    (serves : Serves call before answer after) :
    Keeps one place registered after (trace ++ [⟨call, answer⟩]) := by
  obtain ⟨later, found, aged, apart⟩ := keeps
  obtain ⟨now, foundNow, agedNow⟩ := Ages.serves serves place later found
  have untakenBefore (untaken : now.takers = []) : later.takers = [] := by
    have earlier := agedNow.takers
    rw [untaken] at earlier
    exact List.prefix_nil.1 earlier
  refine ⟨now, foundNow, aged.trans agedNow, fun untaken => ?_⟩
  have old := apart (untakenBefore untaken)
  rw [Ledger.after_concat]
  cases call with
  | fork child =>
      obtain ⟨pid, fresh, rfl, rfl⟩ := serves
      have different : one.pid ≠ pid := by
        rintro rfl
        refine fresh (mem_uncollected.2 ⟨later, List.mem_of_getElem? found, aged.pid, ?_⟩)
        exact untakenBefore untaken
      simp [Ledger.enter, old, different]
  | wait pid =>
      simp only [Ledger.enter]
      split <;> exact old
  | poll pid =>
      simp only [Ledger.enter]
      split <;> exact old
  | _ => exact old

end Family

/-- What a program leaves alone, when these pids are registered and anything may happen to children
between its calls. -/
structure LeavesAlone {α : Type} (registered : List Pid) (program : Shell α) (family : Family) :
    Prop where
  /-- No call changes a child that was there before and is not registered. -/
  spares : ∀ trace left now,
    Reaches (Family.Answers Family.Meddles) program family trace left now →
      ∀ place one, family[place]? = some one → one.pid ∉ registered →
        Reaches (Family.Spares place) program family trace left now
  /-- No wait blocks for a child that was there before, registered or not. -/
  unblocked : ∀ trace pid now,
    ComesTo (Family.Answers Family.Meddles) program family trace (.wait pid) now →
      ∀ place later, place < family.length → now[place]? = some later → later.takers = [] →
        later.pid ≠ pid

section

variable {α : Type} {registered : List Pid} {program left : Shell α} {family now : Family}
variable {trace : Shell.Trace} {place : Nat} {one : Offspring}

theorem keeps_of_reaches (there : family[place]? = some one)
    (run : Reaches (Family.Answers Family.Meddles) program family trace left now) :
    Family.Keeps one place registered now trace := by
  have start : Family.Keeps one place registered family [] :=
    ⟨one, there, .refl one, fun _ => List.not_mem_nil⟩
  refine run.keeps (Family.Keeps one place registered) start ?_
  rintro record call before answer after _ keeps ⟨middle, drifted, serves⟩
  exact (keeps.meddles drifted).serves serves

/-- Whoever asks only for children of its own and for registered jobs leaves the others alone. -/
theorem leavesAlone_of_careful
    (careful : Careful (Family.Answers Family.Meddles) registered program) (family : Family) :
    LeavesAlone registered program family where
  spares := by
    intro trace left now run place one there unregistered
    have start : Family.Keeps one place registered family [] :=
      ⟨one, there, .refl one, fun _ => List.not_mem_nil⟩
    refine (run.strengthen (Family.Keeps one place registered) start ?_).1
    rintro record call before answer after comes keeps ⟨middle, drifted, serves⟩
    have keeps := keeps.meddles drifted
    refine ⟨⟨middle, drifted, serves, ?_⟩, keeps.serves serves⟩
    obtain ⟨later, found, aged, apart⟩ := keeps
    have named := careful family record call before comes
    refine serves.getElem? found ?_
    rintro pid (rfl | rfl) untaken same
    · exact apart untaken ((aged.pid ▸ same) ▸ named)
    · exact unregistered (Ledger.after_pending_subset record ((aged.pid ▸ same) ▸ named))
  unblocked := by
    rintro trace pid now comes place later inside found untaken rfl
    have named := careful family trace _ now comes
    obtain ⟨left, reached, _⟩ := comes
    obtain ⟨one, there⟩ : ∃ one, family[place]? = some one := ⟨_, List.getElem?_eq_getElem inside⟩
    obtain ⟨same, foundSame, aged, apart⟩ := keeps_of_reaches there reached
    obtain rfl : later = same := Option.some.inj (found.symm.trans foundSame)
    exact apart untaken (aged.pid ▸ named)

end

/-- A line blocks only for its own children, polls only registered jobs, and leaves all other children
alone, and so does collecting jobs. -/
theorem Session.waits_for_its_own :
    (∀ (σ : Type) (step : (call : Request) → σ → call.Answer → σ → Prop),
      (∀ (session : Session) (line : String), session.Waits step line) ∧
      (∀ registry : Registry, PollsRegistered step registry.pids registry.pollOnce ∧
        PollsRegistered step registry.pids registry.drain) ∧
      ∀ session : Session, PollsRegistered step session.jobs.pids session.reap) ∧
    ∀ family : Family,
      (∀ (session : Session) (line : String),
        LeavesAlone session.jobs.pids (session.runLine line) family) ∧
      (∀ registry : Registry, LeavesAlone registry.pids registry.pollOnce family ∧
        LeavesAlone registry.pids registry.drain family) ∧
      ∀ session : Session, LeavesAlone session.jobs.pids session.reap family := by
  refine ⟨fun σ step => ⟨runLine_waits step, fun registry => ?_, reap_polls⟩, fun family => ⟨?_, ?_, ?_⟩⟩
  · exact ⟨pollOnce_polls registry, drain_polls registry⟩
  · exact fun session line => leavesAlone_of_careful (runLine_waits _ session line).careful family
  · intro registry
    exact ⟨leavesAlone_of_careful (pollOnce_polls registry).careful family,
      leavesAlone_of_careful (drain_polls registry).careful family⟩
  · exact fun session => leavesAlone_of_careful (reap_polls session).careful family

/-- A registered child has left, and so has another one.  Both stages of the pipe are waited for, the
registered child is collected, and the other one is as it was. -/
theorem Session.waits_for_its_own_beside :
    let child : Child := ⟨⟨"a", none, [], ⟨NulFree.clip [], []⟩, none, none⟩, none⟩
    let family : Family := [⟨1, child, some (.exited 5), []⟩, ⟨2, child, some (.exited 0), []⟩]
    let session : Session := ⟨⟨Path.ofText "/", []⟩, [⟨1, true⟩]⟩
    let line := "b | c"
    ∃ early now trace outcome final,
      ComesTo (Family.Answers Family.Meddles) (session.runLine line) family early (.wait 4) now ∧
      (Ledger.after session.jobs.pids early).started = [3, 4] ∧
      (¬ ∃ command, Session.Detached line command) ∧
      (Ledger.after session.jobs.pids early).started[
        (Ledger.after session.jobs.pids early).settled]? = some 4 ∧
      Runs (Family.Answers Family.Meddles) (session.runLine line) family trace outcome final ∧
      trace.filterMap (fun event => event.call.waited?) = [3, 4, 1] ∧ outcome.session.jobs = [] ∧
      final[0]? = some ⟨1, child, some (.exited 5), [.shell]⟩ ∧ final[1]? = family[1]? ∧
      Reaches (Family.Spares 1) (session.runLine line) family trace (.done outcome) final := by
  intro child family session line
  have performs : ∀ call before answer after, Family.promptly call before = some (answer, after) →
      Family.Answers Family.Meddles call before answer after :=
    fun call before _ _ performed =>
      ⟨before.settle call, Family.settle_meddles call before, Family.serves_of_promptly performed⟩
  have ahead : (advance (record Family.promptly) 8 (session.runLine line) (family, [])).map
      (fun left => (left.1.call?, (Ledger.after session.jobs.pids left.2.2).started)) =
        some (some (.wait 4), [3, 4]) := by
    decide +kernel
  obtain ⟨⟨left, now, early⟩, advanced, summary⟩ := Option.map_eq_some_iff.1 ahead
  obtain ⟨call, started⟩ := Prod.mk.inj summary
  have comes : ComesTo (Family.Answers Family.Meddles) (session.runLine line) family early (.wait 4) now :=
    ⟨left, reaches_of_record performs advanced, call⟩
  have executed : ((session.runLine line).runWith (record Family.promptly) 1 (family, [])).map
      (fun last => (last.1.session.jobs, last.2.1[0]?, last.2.1[1]?,
        last.2.2.filterMap fun event => event.call.waited?)) =
          some ([], some ⟨1, child, some (.exited 5), [.shell]⟩, family[1]?, [3, 4, 1]) := by
    decide +kernel
  obtain ⟨⟨outcome, final, trace⟩, executed, summary⟩ := Option.map_eq_some_iff.1 executed
  obtain ⟨jobs, summary⟩ := Prod.mk.inj summary
  obtain ⟨first, summary⟩ := Prod.mk.inj summary
  obtain ⟨second, waited⟩ := Prod.mk.inj summary
  have run := runs_of_record performs executed
  obtain ⟨waits, leaves⟩ := Session.waits_for_its_own
  obtain ⟨attached, next⟩ := ((waits Family _).1 session line).waits family early 4 now comes
  have other : (2 : Pid) ∉ session.jobs.pids := by decide +kernel
  refine ⟨early, now, trace, outcome, final, comes, started, attached, next, run, waited, jobs, first,
    second, ?_⟩
  exact ((leaves family).1 session line).spares trace _ final run.reaches 1 _ rfl other

end LineShell
