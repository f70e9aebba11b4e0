/-
# LineShell.Proofs.Accounts -- what becomes of every job that is registered

The registry is used in any order: jobs are registered, whatever their pids are,
it is polled and drained, and any pid is waited for.  Meanwhile children are
started and end, and somebody else may take their status (`Family.Meddles`), also
between two calls of one poll.  Only a pid is never given to a second child.

`Watch` adds to the children a record of the polls that were answered with a final
error, each with the children at that moment.  It is for the statement only: no
answer depends on it.

`Usage.accounted` is the account.  A status is delivered or taken by somebody else
at most once, and what is delivered is how that child ended.  Every registered
entry is still there, in the order of registration, or was reported by a poll, or
was dropped by a poll that found the child collected or its status unreportable.
-/
import LineShell.Proofs.Draining
import LineShell.Proofs.Family
import LineShell.Session
import Mathlib.Data.List.Perm.Basic

namespace LineShell

set_option autoImplicit false

/-- A poll that was answered with a final error. -/
structure Drop where
  pid : Pid
  errno : Errno
  /-- The children when the poll was answered. -/
  seen : Family

/-- The children, and the polls so far that were answered with a final error. -/
structure Watch where
  family : Family
  drops : List Drop

/-- The error of an answer that is final. -/
def Registry.failure? : Except Errno WaitStatus → Option Errno
  | .ok _ => none
  | .error .EINTR => none
  | .error errno => some errno

namespace Watch

/-- What an answer adds to the record. -/
def failures : (call : Request) → call.Answer → Family → List Drop
  | .poll pid, answer, family => (Registry.failure? answer).toList.map fun errno => ⟨pid, errno, family⟩
  | _, _, _ => []

/-- The answers of a system in which others may take a status at any time. -/
def Answers (call : Request) (before : Watch) (answer : call.Answer) (after : Watch) : Prop :=
  ∃ middle, Relation.ReflTransGen Family.Meddles before.family middle ∧
    Family.Serves call middle answer after.family ∧
      after.drops = before.drops ++ failures call answer middle

end Watch

/-- The child had been collected before, or its status cannot be told. -/
def Drop.Justified (drop : Drop) : Prop :=
  (drop.errno = .ECHILD ∧ ∀ one ∈ drop.seen, one.pid = drop.pid → one.takers ≠ []) ∨
  (drop.errno = .EINVAL ∧ ∃ one ∈ drop.seen, one.pid = drop.pid ∧ one.takers = [] ∧
    ∃ signal core, one.ending = some (.killed signal core) ∧ Task.lastReportable < signal)

/-- The code is the one that the child has ended with. -/
def Collected.Reports (collected : Collected) (family : Family) : Prop :=
  ∃ one ∈ family, one.pid = collected.pid ∧
    ∃ fate, one.ending = some fate ∧ fate.status.code = some collected.code

namespace Collected

/-- What an answer tells about a child. -/
def ofAnswer (pid : Pid) (answer : Except Errno WaitStatus) : List Collected :=
  (answer.toOption.bind WaitStatus.code).toList.map fun code => ⟨pid, code⟩

/-- What a wait tells about a child. -/
def ofWait (pid : Pid) (result : Except Errno Int) : List Collected :=
  result.toOption.toList.map fun code => ⟨pid, code⟩

/-- What a poll tells about a child. -/
def ofPoll : Poll → List Collected
  | .terminated pid code => [⟨pid, code⟩]
  | .noneReady => []
  | .noChildren => []

theorem Reports.ages {collected : Collected} {family after : Family}
    (reports : collected.Reports family) (ages : family.Ages after) : collected.Reports after := by
  obtain ⟨one, mem, rightPid, fate, ended, code⟩ := reports
  obtain ⟨place, found⟩ := List.mem_iff_getElem?.1 mem
  obtain ⟨later, foundLater, aged⟩ := ages place one found
  exact ⟨later, List.mem_of_getElem? foundLater, aged.pid.trans rightPid, fate,
    aged.ending _ ended, code⟩

end Collected

/-! ## What the books say about the children -/

/-- The children that were started, the codes that were delivered and the pids of the entries that
were dropped, with what has to be true of them. -/
structure Keeps (watch : Watch) (births : List (Pid × Child)) (told : List Collected)
    (dropped : List Pid) : Prop where
  births : watch.family.births = births
  conserved : watch.family.Conserved
  /-- Nothing is delivered that the shell has not taken. -/
  taken : ∀ pid, (told.map Collected.pid).count pid ≤ watch.family.takes pid .shell
  reports : ∀ collected ∈ told, collected.Reports watch.family
  dropped : watch.drops.map Drop.pid = dropped
  causes : ∀ drop ∈ watch.drops, drop.seen.Ages watch.family ∧ drop.Justified

section Keeping

variable {births later : List (Pid × Child)} {told : List Collected} {dropped : List Pid}
variable {family after : Family} {drops : List Drop} {pid : Pid}

/-- The books stay right while children are started, end, or are taken. -/
theorem Keeps.move (keeps : Keeps ⟨family, drops⟩ births told dropped) (ages : family.Ages after)
    (started : after.births = later) (conserved : after.Conserved)
    (takes : ∀ pid, family.takes pid .shell ≤ after.takes pid .shell) :
    Keeps ⟨after, drops⟩ later told dropped where
  births := started
  conserved := conserved
  taken := fun pid => (keeps.taken pid).trans (takes pid)
  reports := fun collected mem => (keeps.reports collected mem).ages ages
  dropped := keeps.dropped
  causes := fun drop mem => ⟨(keeps.causes drop mem).1.trans ages, (keeps.causes drop mem).2⟩

theorem Family.takes_le_take (family : Family) (pid other : Pid) (taker who : Taker) :
    family.takes other who ≤ (family.take pid taker).takes other who := by
  rw [Family.takes_take]
  exact Nat.le_add_right _ _

theorem Keeps.bear (keeps : Keeps ⟨family, drops⟩ births told dropped) (child : Child) :
    Keeps ⟨family.bear pid child, drops⟩ (births ++ [(pid, child)]) told dropped :=
  keeps.move (Family.ages_bear family pid child) (by simp [← keeps.births])
    (keeps.conserved.bear pid child) (by simp)

theorem Keeps.take (keeps : Keeps ⟨family, drops⟩ births told dropped) (taker : Taker) :
    Keeps ⟨family.take pid taker, drops⟩ births told dropped :=
  keeps.move (Family.ages_take family pid taker) (by simp [← keeps.births])
    (keeps.conserved.take pid taker) fun _ => Family.takes_le_take family pid _ taker .shell

theorem Keeps.meddles (keeps : Keeps ⟨family, drops⟩ births told dropped)
    (meddles : family.Meddles after) : Keeps ⟨after, drops⟩ births told dropped := by
  cases meddles with
  | ends ends =>
      cases ends with
      | ends fate _ =>
          exact keeps.move (Family.ages_finish family _ fate) (by simp [← keeps.births])
            (keeps.conserved.finish _ fate) (by simp)
  | steals _ => exact keeps.take .stranger

theorem Keeps.drift (keeps : Keeps ⟨family, drops⟩ births told dropped)
    (drifts : Relation.ReflTransGen Family.Meddles family after) :
    Keeps ⟨after, drops⟩ births told dropped :=
  Family.drift_keeps
    (fun before _ meddles (keeps : Keeps ⟨before, drops⟩ births told dropped) => keeps.meddles meddles)
    drifts keeps

/-- What is delivered in another order is delivered all the same. -/
theorem Keeps.perm {watch : Watch} {other : List Collected} (keeps : Keeps watch births told dropped)
    (perm : told.Perm other) : Keeps watch births other dropped where
  births := keeps.births
  conserved := keeps.conserved
  taken := fun pid => (perm.map Collected.pid).count_eq pid ▸ keeps.taken pid
  reports := fun collected mem => keeps.reports collected (perm.mem_iff.2 mem)
  dropped := keeps.dropped
  causes := keeps.causes

/-- A child that has ended is collected and its code delivered. -/
theorem Keeps.deliver (keeps : Keeps ⟨family, drops⟩ births told dropped) {fate : Fate} {code : Int}
    (ended : family.Ended pid fate) (final : fate.status.code = some code) :
    Keeps ⟨family.take pid .shell, drops⟩ births (told ++ [⟨pid, code⟩]) dropped := by
  have taken : Keeps ⟨family.take pid .shell, drops⟩ births told dropped := keeps.take .shell
  refine { taken with taken := ?_, reports := ?_ }
  · intro other
    have before : (told.map Collected.pid).count other ≤ family.takes other .shell :=
      keeps.taken other
    have waiting : 0 < family.uncollected.count pid := List.count_pos_iff.2 ended.mem_uncollected
    simp only [Family.takes_take, List.map_append, List.map_cons, List.map_nil, List.count_append,
      List.count_singleton]
    by_cases same : other = pid
    · subst same
      simp
      omega
    · simp [same, Ne.symm same, before]
  · intro collected mem
    rcases List.mem_append.1 mem with old | new
    · exact taken.reports collected old
    · obtain rfl := List.mem_singleton.1 new
      obtain ⟨one, found, rightPid, _, fated⟩ := ended
      exact Collected.Reports.ages ⟨one, found, rightPid, fate, fated, final⟩
        (Family.ages_take family pid .shell)

/-- Whatever a wait finds is delivered, and an error has its reason. -/
theorem Keeps.looks (keeps : Keeps ⟨family, drops⟩ births told dropped)
    {answer : Except Errno WaitStatus} (looks : Family.Looks pid family answer after) :
    Keeps ⟨after, drops⟩ births (told ++ Collected.ofAnswer pid answer) dropped ∧
      ∀ errno, Registry.failure? answer = some errno →
        family.Ages after ∧ (⟨pid, errno, family⟩ : Drop).Justified := by
  have ages : family.Ages after := .looks looks
  cases looks with
  | ended ended =>
      rename_i fate
      rcases fate.reported_cases with ⟨code, isTold, final⟩ | untold
      · rw [isTold]
        exact ⟨by simpa [Collected.ofAnswer, Except.toOption, final] using keeps.deliver ended final,
          by simp [Registry.failure?]⟩
      · rw [untold]
        refine ⟨by simpa [Collected.ofAnswer, Except.toOption] using keeps.take .shell, ?_⟩
        intro errno failed
        obtain rfl : Errno.EINVAL = errno := by simpa [Registry.failure?] using failed
        obtain ⟨one, mem, rightPid, free, fated⟩ := ended
        obtain ⟨signal, core, rfl, nameless⟩ := Fate.unreported untold
        exact ⟨ages, .inr ⟨rfl, one, mem, rightPid, free, signal, core, fated, nameless⟩⟩
  | running _ unfinished =>
      exact ⟨by simpa [Collected.ofAnswer, Except.toOption, unfinished] using keeps,
        by simp [Registry.failure?]⟩
  | interrupted _ =>
      exact ⟨by simpa [Collected.ofAnswer, Except.toOption] using keeps, by simp [Registry.failure?]⟩
  | nothing unknown =>
      refine ⟨by simpa [Collected.ofAnswer, Except.toOption] using keeps, ?_⟩
      intro errno failed
      obtain rfl : Errno.ECHILD = errno := by simpa [Registry.failure?] using failed
      exact ⟨ages, .inl ⟨rfl, fun one mem rightPid free =>
        unknown (Family.mem_uncollected.2 ⟨one, mem, rightPid, free⟩)⟩⟩

end Keeping

/-! ## What becomes of the entries -/

/-- Every entry is left, or was reported, or was dropped. -/
structure Splits (entries left : Registry) (told : List Collected) (dropped : List Pid) : Prop where
  order : left.Sublist entries
  perm : (entries.map Job.pid).Perm (left.map Job.pid ++ told.map Collected.pid ++ dropped)

section Splitting

variable {entries middle left kept rest : Registry} {told more : List Collected}
variable {dropped lost : List Pid} {job : Job}

theorem splits_refl (entries : Registry) : Splits entries entries [] [] :=
  ⟨.refl _, by simp⟩

theorem Splits.trans (early : Splits entries middle told dropped)
    (late : Splits middle left more lost) :
    Splits entries left (told ++ more) (dropped ++ lost) where
  order := late.order.trans early.order
  perm := by
    refine List.perm_iff_count.2 fun pid => ?_
    have first := early.perm.count_eq pid
    have second := late.perm.count_eq pid
    simp only [List.count_append, List.map_append] at first second ⊢
    omega

theorem Splits.push (splits : Splits entries left told dropped) (job : Job) :
    Splits (entries ++ [job]) (left ++ [job]) told dropped where
  order := splits.order.append (.refl _)
  perm := by
    refine List.perm_iff_count.2 fun pid => ?_
    have before := splits.perm.count_eq pid
    simp only [List.count_append, List.map_append] at before ⊢
    omega

/-- An entry is reported. -/
theorem splits_reported (kept rest : Registry) (job : Job) (code : Int) :
    Splits (kept ++ job :: rest) (kept ++ rest) [⟨job.pid, code⟩] [] where
  order := (List.sublist_cons_self job rest).append_left kept
  perm := by
    refine List.perm_iff_count.2 fun pid => ?_
    simp only [List.count_append, List.map_append, List.map_cons, List.map_nil, List.count_cons,
      List.count_nil]
    omega

/-- An entry is dropped. -/
theorem splits_dropped (kept rest : Registry) (job : Job) :
    Splits (kept ++ job :: rest) (kept ++ rest) [] [job.pid] where
  order := (List.sublist_cons_self job rest).append_left kept
  perm := by
    refine List.perm_iff_count.2 fun pid => ?_
    simp only [List.count_append, List.map_append, List.map_cons, List.map_nil, List.count_cons,
      List.count_nil]
    omega

end Splitting

/-! ## Waiting and polling -/

/-- Whatever the system answers, the program ends in `post`. -/
abbrev Minds {α : Type} (program : Shell α) (post : α → Watch → Prop) (watch : Watch) : Prop :=
  program.Assures Watch.Answers (fun _ => True) post watch

/-- Some entries of a registry were reported and some dropped, and the books say so. -/
def Clears (births : List (Pid × Child)) (told : List Collected) (dropped : List Pid)
    (registry left : Registry) (collected : List Collected) (after : Watch) : Prop :=
  ∃ lost, Keeps after births (told ++ collected) (dropped ++ lost) ∧ Splits registry left collected lost

section Waiting

variable {births : List (Pid × Child)} {told : List Collected} {dropped : List Pid}
variable {watch before after : Watch} {pid : Pid}

theorem clears_nothing (keeps : Keeps watch births told dropped) (registry : Registry) :
    Clears births told dropped registry registry [] watch :=
  ⟨[], by simpa using keeps, splits_refl registry⟩

/-- What is cleared after an entry was dropped. -/
theorem Clears.after_drop {kept rest left : Registry} {job : Job} {collected : List Collected}
    (clears : Clears births told (dropped ++ [job.pid]) (kept ++ rest) left collected watch) :
    Clears births told dropped (kept ++ job :: rest) left collected watch := by
  obtain ⟨lost, keeps, splits⟩ := clears
  exact ⟨job.pid :: lost, by simpa using keeps, (splits_dropped kept rest job).trans splits⟩

theorem Keeps.waits {answer : Except Errno WaitStatus} (keeps : Keeps before births told dropped)
    (answered : Watch.Answers (.wait pid) before answer after) :
    Keeps after births (told ++ Collected.ofAnswer pid answer) dropped := by
  obtain ⟨family, drops⟩ := before
  obtain ⟨last, record⟩ := after
  obtain ⟨middle, drifted, looks, rfl⟩ := answered
  simpa [Watch.failures] using ((keeps.drift drifted).looks looks).1

theorem Keeps.polls {answer : Except Errno WaitStatus} (keeps : Keeps before births told dropped)
    (answered : Watch.Answers (.poll pid) before answer after) :
    Keeps after births (told ++ Collected.ofAnswer pid answer)
      (dropped ++ (Registry.failure? answer).toList.map fun _ => pid) := by
  obtain ⟨family, drops⟩ := before
  obtain ⟨last, record⟩ := after
  obtain ⟨middle, drifted, looks, rfl⟩ := answered
  obtain ⟨keeps, reason⟩ := (keeps.drift drifted).looks looks
  refine { keeps with dropped := ?_, causes := ?_ }
  · simp [Watch.failures, ← keeps.dropped, Function.comp_def]
  · intro drop mem
    rcases List.mem_append.1 mem with old | new
    · exact keeps.causes drop old
    · obtain ⟨errno, failed, rfl⟩ := List.mem_map.1 new
      exact reason errno (Option.mem_toList.1 failed)

/-- Waiting delivers the code that it gives back. -/
theorem await_minds (keeps : Keeps watch births told dropped) (pid : Pid) :
    Minds (Job.await pid)
      (fun result after => Keeps after births (told ++ Collected.ofWait pid result) dropped) watch := by
  unfold Job.await
  refine Program.assures_bind.2 (Program.assures_insist (Keeps · births told dropped) keeps ?_)
  intro before answer after keeps answered
  have keeps := keeps.waits answered
  refine ⟨trivial, ?_⟩
  rcases answer with errno | status
  · cases errno <;> simpa [Job.undecided, Job.verdict, Collected.ofWait, Collected.ofAnswer,
      Except.toOption] using keeps
  · cases final : status.code <;> simpa [Job.undecided, Job.verdict, Collected.ofWait,
      Collected.ofAnswer, Except.toOption, final] using keeps

theorem poll_minds (keeps : Keeps watch births told dropped) (pid : Pid) :
    Minds (Shell.repeatedly (.poll pid) Registry.interrupted)
      (fun answer after => Registry.interrupted answer = false ∧
        Keeps after births (told ++ Collected.ofAnswer pid answer)
          (dropped ++ (Registry.failure? answer).toList.map fun _ => pid)) watch := by
  refine Program.assures_insist (Keeps · births told dropped) keeps ?_
  intro before answer after keeps answered
  have keeps := keeps.polls answered
  refine ⟨trivial, ?_⟩
  cases again : Registry.interrupted answer with
  | false => simpa using keeps
  | true =>
      -- Only an interrupted poll is made again, and it tells nothing.
      obtain rfl := Registry.interrupted_iff.1 again
      simpa [Collected.ofAnswer, Except.toOption, Registry.failure?] using keeps

/-- A poll reports or drops what it removes. -/
theorem pollFrom_minds (rest : Registry) :
    ∀ (kept : Registry) (dropped : List Pid) (watch : Watch), Keeps watch births told dropped →
      Minds (Registry.pollFrom kept rest)
        (fun result after => Clears births told dropped (kept ++ rest) result.2
          (Collected.ofPoll result.1) after) watch := by
  induction rest with
  | nil =>
      intro kept dropped watch keeps
      unfold Registry.pollFrom
      have cleared := clears_nothing keeps kept
      rw [List.append_nil]
      refine Program.assures_pure.2 ?_
      split
      · exact cleared
      · exact cleared
  | cons job rest ih =>
      intro kept dropped watch keeps
      unfold Registry.pollFrom
      refine Program.assures_bind.2 ?_
      refine (poll_minds keeps job.pid).imp fun answer after polled => ?_
      obtain ⟨usable, keeps⟩ := polled
      rcases answer with errno | status
      · have failed : Registry.failure? (.error errno) = some errno := by
          cases errno <;> simp_all [Registry.interrupted, Registry.failure?]
        have keeps : Keeps after births told (dropped ++ [job.pid]) := by
          simpa [failed, Collected.ofAnswer, Except.toOption] using keeps
        exact (ih kept _ after keeps).imp fun result last cleared => cleared.after_drop
      · have keeps : Keeps after births (told ++ (status.code.toList.map fun code => ⟨job.pid, code⟩))
            dropped := by
          simpa [Registry.failure?, Collected.ofAnswer, Except.toOption] using keeps
        cases final : status.code with
        | some code =>
            simp only [final] at keeps ⊢
            exact ⟨[], by simpa [Collected.ofPoll] using keeps, splits_reported kept rest job code⟩
        | none =>
            have keeps : Keeps after births told dropped := by simpa [final] using keeps
            simpa [final] using ih (kept ++ [job]) dropped after keeps

theorem pollOnce_minds (registry : Registry) (keeps : Keeps watch births told dropped) :
    Minds registry.pollOnce
      (fun result after => Clears births told dropped registry result.2 (Collected.ofPoll result.1)
        after) watch :=
  pollFrom_minds registry [] dropped watch keeps

/-- So does a drain. -/
theorem drainWithin_minds (limit : Nat) :
    ∀ (registry : Registry) (told : List Collected) (dropped : List Pid) (watch : Watch),
      Keeps watch births told dropped →
        Minds (Registry.drainWithin limit registry)
          (fun result after => Clears births told dropped registry result.2 result.1 after) watch := by
  induction limit with
  | zero =>
      intro registry told dropped watch keeps
      exact clears_nothing keeps registry
  | succ limit ih =>
      intro registry told dropped watch keeps
      unfold Registry.drainWithin
      refine Program.assures_bind.2 ?_
      refine (pollOnce_minds registry keeps).imp fun polled after found => ?_
      obtain ⟨poll, middle⟩ := polled
      cases poll with
      | terminated pid code =>
          obtain ⟨lost, keeps, splits⟩ := found
          simp only [Program.assures_bind, Program.assures_pure]
          refine (ih middle _ _ after keeps).imp fun result last ended => ?_
          obtain ⟨more, keeps, later⟩ := ended
          exact ⟨lost ++ more, by simpa [Collected.ofPoll] using keeps, splits.trans later⟩
      | noneReady => exact found
      | noChildren => exact found

end Waiting

/-! ## Any use of the registry -/

/-- What was registered, what polls and drains have reported and what waits have given back. -/
structure Account where
  pushed : Registry
  reported : List Collected
  awaited : List Collected

/-- Every code that was delivered. -/
def Account.told (account : Account) : List Collected :=
  account.reported ++ account.awaited

/-- The registry is used, and the children start, end and are taken, in any order. -/
inductive Usage (surroundings : Surroundings) : Session → Watch → Account → Prop where
  | start : Usage surroundings (Session.start surroundings) ⟨[], []⟩ ⟨[], [], []⟩
  /-- A child is started with a pid that none has had before. -/
  | born {session : Session} {watch : Watch} {account : Account} {pid : Pid} (child : Child) :
      Usage surroundings session watch account → (∀ one ∈ watch.family, one.pid ≠ pid) →
      Usage surroundings session ⟨watch.family.bear pid child, watch.drops⟩ account
  /-- A child ends, or somebody else takes the status of one that has ended. -/
  | meddles {session : Session} {watch : Watch} {account : Account} {after : Family} :
      Usage surroundings session watch account → watch.family.Meddles after →
      Usage surroundings session ⟨after, watch.drops⟩ account
  | push {session : Session} {watch : Watch} {account : Account} (job : Job) :
      Usage surroundings session watch account →
      Usage surroundings (session.register job) watch
        { account with pushed := account.pushed ++ [job] }
  | poll {session : Session} {watch after : Watch} {account : Account} {poll : Poll}
      {left : Registry} {trace : List (Program.Event Request Request.Answer)} :
      Usage surroundings session watch account →
      Program.Runs Watch.Answers session.jobs.pollOnce watch trace (poll, left) after →
      Usage surroundings { session with jobs := left } after
        { account with reported := account.reported ++ Collected.ofPoll poll }
  | drain {session : Session} {watch after : Watch} {account : Account}
      {collected : List Collected} {left : Registry}
      {trace : List (Program.Event Request Request.Answer)} :
      Usage surroundings session watch account →
      Program.Runs Watch.Answers session.jobs.drain watch trace (collected, left) after →
      Usage surroundings { session with jobs := left } after
        { account with reported := account.reported ++ collected }
  | wait {session : Session} {watch after : Watch} {account : Account} {pid : Pid}
      {result : Except Errno Int} {trace : List (Program.Event Request Request.Answer)} :
      Usage surroundings session watch account →
      Program.Runs Watch.Answers (Job.await pid) watch trace result after →
      Usage surroundings session after
        { account with awaited := account.awaited ++ Collected.ofWait pid result }

/-- How the registry, the children and the account hang together. -/
structure Books (session : Session) (watch : Watch) (account : Account) : Prop where
  keeps : Keeps watch watch.family.births account.told (watch.drops.map Drop.pid)
  /-- No pid was given to two children. -/
  fresh : (watch.family.births.map Prod.fst).Nodup
  splits : Splits account.pushed session.jobs account.reported (watch.drops.map Drop.pid)

section Using

variable {session : Session} {watch after : Watch} {account : Account} {left : Registry}
variable {collected : List Collected}

theorem books_start (surroundings : Surroundings) :
    Books (Session.start surroundings) ⟨[], []⟩ ⟨[], [], []⟩ where
  keeps := ⟨rfl, Family.conserved_nil, fun _ => Nat.zero_le _, by simp [Account.told], rfl, by simp⟩
  fresh := List.nodup_nil
  splits := splits_refl []

theorem Books.born (books : Books session watch account) {pid : Pid} (child : Child)
    (fresh : ∀ one ∈ watch.family, one.pid ≠ pid) :
    Books session ⟨watch.family.bear pid child, watch.drops⟩ account where
  keeps := (Family.births_bear watch.family pid child).symm ▸ books.keeps.bear child
  fresh := by
    have new : ∀ birth ∈ watch.family.births, birth.1 ≠ pid := by
      intro birth mem
      obtain ⟨one, found, rfl⟩ := List.mem_map.1 mem
      exact fresh one found
    simpa [List.nodup_append, books.fresh] using fun _ _ mem => new _ mem
  splits := books.splits

theorem Books.meddles (books : Books session watch account) {family : Family}
    (meddles : watch.family.Meddles family) : Books session ⟨family, watch.drops⟩ account := by
  have keeps : Keeps ⟨family, watch.drops⟩ _ _ _ := books.keeps.meddles meddles
  have same : family.births = watch.family.births := keeps.births
  exact ⟨same.symm ▸ keeps, same.symm ▸ books.fresh, books.splits⟩

/-- A poll or a drain: what it reports and drops is what it removes. -/
theorem Books.collect (books : Books session watch account)
    (clears : Clears watch.family.births account.told (watch.drops.map Drop.pid) session.jobs left
      collected after) :
    Books { session with jobs := left } after
      { account with reported := account.reported ++ collected } := by
  obtain ⟨lost, keeps, splits⟩ := clears
  refine ⟨?_, keeps.births ▸ books.fresh, ?_⟩
  · have perm : (account.told ++ collected).Perm
        ((account.reported ++ collected) ++ account.awaited) := by
      simpa [Account.told] using List.perm_append_comm.append_left account.reported
    rw [keeps.births, keeps.dropped]
    exact keeps.perm perm
  · rw [keeps.dropped]
    exact books.splits.trans splits

theorem Books.wait (books : Books session watch account)
    (keeps : Keeps after watch.family.births (account.told ++ collected) (watch.drops.map Drop.pid)) :
    Books session after { account with awaited := account.awaited ++ collected } where
  keeps := by
    rw [keeps.births, keeps.dropped]
    simpa [Account.told] using keeps
  fresh := keeps.births ▸ books.fresh
  splits := keeps.dropped ▸ books.splits

/-- Every use of the registry keeps the books right. -/
theorem Usage.books {surroundings : Surroundings}
    (usage : Usage surroundings session watch account) : Books session watch account := by
  induction usage with
  | start => exact books_start surroundings
  | born child _ fresh ih => exact ih.born child fresh
  | meddles _ meddles ih => exact ih.meddles meddles
  | push job _ ih => exact ⟨ih.keeps, ih.fresh, ih.splits.push job⟩
  | poll _ run ih => exact ih.collect ((pollOnce_minds _ ih.keeps).runs run).1
  | drain _ run ih => exact ih.collect ((drainWithin_minds _ _ _ _ _ ih.keeps).runs run).1
  | wait _ run ih => exact ih.wait ((await_minds ih.keeps _).runs run).1

end Using

/-- What an account says about the children and the entries. -/
structure Accounted (session : Session) (watch : Watch) (account : Account) : Prop where
  /-- A status is delivered to the shell or taken by somebody else, once. -/
  once : ∀ pid,
    (account.told.map Collected.pid).count pid + watch.family.takes pid .stranger ≤ 1
  /-- A delivered code is the one that the child has ended with. -/
  told : ∀ collected ∈ account.told, collected.Reports watch.family
  /-- Every entry that was registered is left, or was reported, or was dropped. -/
  entries : ∀ pid, (account.pushed.map Job.pid).count pid =
    (session.jobs.map Job.pid).count pid + (account.reported.map Collected.pid).count pid +
      (watch.drops.map Drop.pid).count pid
  /-- Nothing is dropped without a reason that was there at that moment. -/
  causes : ∀ drop ∈ watch.drops, drop.seen.Ages watch.family ∧ drop.Justified
  /-- What is left is in the order of registration. -/
  order : session.jobs.Sublist account.pushed

/-- However the registry is used, every status and every entry is accounted for. -/
theorem Usage.accounted {surroundings : Surroundings} {session : Session} {watch : Watch}
    {account : Account} (usage : Usage surroundings session watch account) :
    Accounted session watch account := by
  have books := usage.books
  refine ⟨fun pid => ?_, books.keeps.reports, fun pid => ?_, books.keeps.causes, books.splits.order⟩
  · have taken := books.keeps.taken pid
    have conserved := books.keeps.conserved pid
    have single := List.nodup_iff_count.1 books.fresh pid
    omega
  · have split := books.splits.perm.count_eq pid
    simpa only [List.count_append] using split

/-! ## A use in which everything happens -/

namespace Watch

/-- Answer a call when the child that it asks for has ended. -/
def promptly (call : Request) (watch : Watch) : Option (call.Answer × Watch) :=
  let settled := watch.family.settle call
  let (answer, after) := Family.serve call settled
  some (answer, ⟨after, watch.drops ++ failures call answer settled⟩)

theorem promptly_answers (call : Request) (watch : Watch) (answer : call.Answer) (after : Watch)
    (answered : promptly call watch = some (answer, after)) : Answers call watch answer after := by
  obtain ⟨rfl, rfl⟩ := Prod.mk.inj (Option.some.inj answered)
  exact ⟨watch.family.settle call, Family.settle_meddles call watch.family,
    Family.serves_serve call _, rfl⟩

end Watch

/-- A child that was started with nothing. -/
def Child.bare : Child :=
  ⟨⟨"", none, [], ⟨⟨[], List.not_mem_nil⟩, []⟩, none, none⟩, none⟩

/-- Four children: one ends, one is taken by somebody else, one ends without a code, one runs. -/
def Family.crowd : Family :=
  let started := (((Family.bear [] 1 .bare).bear 2 .bare).bear 3 .bare).bear 4 .bare
  (((started.finish 1 (.exited 5)).finish 2 (.exited 0)).finish 3 (.killed 70 false)).take 2 .stranger

/-- Every child is registered, one of them twice, and so is a pid that no child has. -/
def Session.crowded : Session :=
  [1, 1, 2, 3, 4, 9].foldl (fun session pid => session.register ⟨pid, true⟩)
    (Session.start ⟨Path.ofText "/", []⟩)

theorem Usage.crowded :
    Usage ⟨Path.ofText "/", []⟩ Session.crowded ⟨Family.crowd, []⟩ ⟨Session.crowded.jobs, [], []⟩ := by
  have started : Usage ⟨Path.ofText "/", []⟩ (Session.start ⟨Path.ofText "/", []⟩)
      ⟨(((Family.bear [] 1 .bare).bear 2 .bare).bear 3 .bare).bear 4 .bare, []⟩ ⟨[], [], []⟩ :=
    .born _ (.born _ (.born _ (.born _ .start (by decide)) (by decide)) (by decide)) (by decide)
  have first := started.meddles
    (.ends (.ends (.exited 5) ⟨⟨1, .bare, none, []⟩, by decide, rfl, rfl, rfl⟩))
  have second := first.meddles
    (.ends (.ends (.exited 0) ⟨⟨2, .bare, none, []⟩, by decide, rfl, rfl, rfl⟩))
  have third := second.meddles
    (.ends (.ends (.killed 70 false) ⟨⟨3, .bare, none, []⟩, by decide, rfl, rfl, rfl⟩))
  have stolen := third.meddles
    (.steals ⟨⟨2, .bare, some (.exited 0), []⟩, by decide, rfl, rfl, rfl⟩)
  have twice := (stolen.push ⟨1, true⟩).push ⟨1, true⟩
  exact (((twice.push ⟨2, true⟩).push ⟨3, true⟩).push ⟨4, true⟩).push ⟨9, true⟩

/-- One status is waited for, one is reported, one is taken by somebody else, and one cannot be told;
every entry is accounted for. -/
theorem Usage.accounted_crowded :
    ∃ (session : Session) (watch : Watch) (account : Account),
      Usage ⟨Path.ofText "/", []⟩ session watch account ∧
      account.pushed.map Job.pid = [1, 1, 2, 3, 4, 9, 5] ∧ session.jobs.map Job.pid = [5] ∧
      account.reported = [⟨1, 5⟩] ∧ account.awaited = [⟨4, 0⟩] ∧
      watch.drops.map (fun drop => (drop.pid, drop.errno)) =
        [(1, .ECHILD), (2, .ECHILD), (3, .EINVAL), (4, .ECHILD), (9, .ECHILD)] ∧
      Accounted session watch account := by
  have waited : (Job.await 4).runWith Watch.promptly 1 ⟨Family.crowd, []⟩ =
      some (.ok 0, ⟨(Family.crowd.finish 4 (.exited 0)).take 4 .shell, []⟩) := rfl
  have drained : (Session.crowded.jobs.drain.runWith Watch.promptly 1
      ⟨(Family.crowd.finish 4 (.exited 0)).take 4 .shell, []⟩).map
        (fun last => (last.1, last.2.drops.map fun drop => (drop.pid, drop.errno))) =
      some (([⟨1, 5⟩], []),
        [(1, .ECHILD), (2, .ECHILD), (3, .EINVAL), (4, .ECHILD), (9, .ECHILD)]) := rfl
  obtain ⟨⟨result, watch⟩, drained, summary⟩ := Option.map_eq_some_iff.1 drained
  obtain ⟨rfl, drops⟩ := Prod.mk.inj summary
  obtain ⟨_, waited⟩ := Program.runs_of_runWith Watch.promptly_answers waited
  obtain ⟨_, drained⟩ := Program.runs_of_runWith Watch.promptly_answers drained
  have usage := ((Usage.crowded.wait waited).drain drained).push ⟨5, true⟩
  exact ⟨_, _, _, usage, rfl, rfl, rfl, rfl, drops, Usage.accounted usage⟩

end LineShell
