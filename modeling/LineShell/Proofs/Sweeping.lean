/-
# LineShell.Proofs.Sweeping -- a drain of children that do nothing else is one pass

A drain starts again at the first job each time that it has found one that is gone, and
what it has polled before is polled once more.  When no child changes except by these polls,
that makes no difference: `Registry.sweep` is a single pass over the jobs which reports a
job that is gone, leaves one that is running, and drops one that cannot be polled, and
`Registry.drain_sweeps` says that a drain ends as the pass does.

The reason is that the jobs in front of the place that a poll has reached are running, that
a pass goes over running jobs without any effect (`sweep_of_running`), and that they are
still running after somebody else's status was taken (`Family.Running.looks`).

A pid may be registered several times.  The first entry reports the child, and a later one
finds nothing, so what a pass reports is read off the pids without their repetitions.
-/
import LineShell.Proofs.Reviewing
import LineShell.Proofs.Draining

namespace LineShell

set_option autoImplicit false

open Program

/-! ## What a wait finds -/

/-- What is said about a child that has ended comes at once. -/
theorem Fate.reported_usable (fate : Fate) : Registry.interrupted fate.reported = false := by
  rcases fate.reported_cases with ⟨code, reported, _⟩ | untold
  · rw [reported]
    rfl
  · rw [untold]
    rfl

namespace Family

variable {family after : Family} {pid other : Pid} {fate : Fate} {answer : Except Errno WaitStatus}

instance (family : Family) (pid : Pid) : Decidable (family.Running pid) :=
  inferInstanceAs (Decidable (∃ one ∈ family, one.pid = pid ∧ one.takers = [] ∧ one.ending = none))

/-- A wait looks at the one uncollected child with that pid. -/
theorem find?_uncollected {one : Offspring} (distinct : family.uncollected.Nodup) (mem : one ∈ family)
    (free : one.takers = []) :
    (family.find? fun other => other.pid = one.pid ∧ other.takers = []) = some one := by
  cases found : family.find? fun other => other.pid = one.pid ∧ other.takers = [] with
  | none =>
      have missed := List.find?_eq_none.1 found one mem
      simp [free] at missed
  | some other =>
      obtain ⟨same, freeOther⟩ : other.pid = one.pid ∧ other.takers = [] := by
        simpa using List.find?_some found
      have there : other ∈ family := List.mem_of_find?_eq_some found
      rw [eq_of_pid distinct there mem freeOther free same]

theorem Ended.look (ended : family.Ended pid fate) (distinct : family.uncollected.Nodup) :
    family.look pid = (fate.reported, family.take pid .shell) := by
  obtain ⟨one, mem, rfl, free, fated⟩ := ended
  simp only [Family.look, find?_uncollected distinct mem free, fated]

theorem Running.look (running : family.Running pid) (distinct : family.uncollected.Nodup) :
    family.look pid = (.ok .stillAlive, family) := by
  obtain ⟨one, mem, rfl, free, unended⟩ := running
  simp only [Family.look, find?_uncollected distinct mem free, unended]

theorem look_of_not_mem (absent : pid ∉ family.uncollected) :
    family.look pid = (.error .ECHILD, family) := by
  have missed : (family.find? fun one => one.pid = pid ∧ one.takers = []) = none := by
    refine List.find?_eq_none.2 fun one mem found => absent ?_
    obtain ⟨same, free⟩ : one.pid = pid ∧ one.takers = [] := by simpa using found
    exact mem_uncollected.2 ⟨one, mem, same, free⟩
  simp only [Family.look, missed]

/-- A look is not interrupted. -/
theorem look_usable (pid : Pid) (family : Family) :
    Registry.interrupted (family.look pid).1 = false := by
  unfold Family.look
  split
  · rfl
  · split
    · rfl
    · next fate _ => exact fate.reported_usable

/-- What is collected by a wait for a child that is not interrupted. -/
def due (family : Family) (pid : Pid) : List Collected :=
  Collected.ofAnswer pid (family.look pid).1

theorem Ended.due (ended : family.Ended pid fate) (distinct : family.uncollected.Nodup) :
    family.due pid = fate.told.toList.map (Collected.mk pid) := by
  simp only [Family.due, ended.look distinct]
  rfl

theorem Running.due (running : family.Running pid) (distinct : family.uncollected.Nodup) :
    family.due pid = [] := by
  simp only [Family.due, running.look distinct]
  rfl

theorem due_of_not_mem (absent : pid ∉ family.uncollected) : family.due pid = [] := by
  simp only [Family.due, look_of_not_mem absent]
  rfl

theorem mem_due {child : Collected} (distinct : family.uncollected.Nodup) :
    child ∈ family.due pid ↔
      child.pid = pid ∧ ∃ fate, family.Ended pid fate ∧ fate.told = some child.code := by
  obtain ⟨told, code⟩ := child
  constructor
  · intro mem
    rcases family.running_ended_or_absent pid with running | ⟨fate, ended⟩ | absent
    · rw [running.due distinct] at mem
      cases mem
    · rw [ended.due distinct] at mem
      obtain ⟨reported, known, same⟩ := List.mem_map.1 mem
      cases same
      exact ⟨rfl, fate, ended, Option.mem_toList.1 known⟩
    · rw [due_of_not_mem absent] at mem
      cases mem
  · rintro ⟨rfl, fate, ended, known⟩
    rw [ended.due distinct]
    exact List.mem_map.2 ⟨code, Option.mem_toList.2 known, rfl⟩

/-! ## What a wait changes -/

theorem Looks.of_interrupted (looks : Looks pid family answer after)
    (again : Registry.interrupted answer = true) : after = family := by
  cases looks with
  | @ended fate _ =>
      rw [fate.reported_usable] at again
      cases again
  | running _ _ => rfl
  | interrupted _ => rfl
  | nothing _ => rfl

theorem Looks.nodup (looks : Looks pid family answer after) (distinct : family.uncollected.Nodup) :
    after.uncollected.Nodup :=
  distinct.sublist looks.uncollected

/-- A wait leaves the same children running. -/
theorem Looks.running_iff (looks : Looks pid family answer after)
    (distinct : family.uncollected.Nodup) : after.Running other ↔ family.Running other := by
  refine ⟨fun running => ?_, fun running => running.looks looks distinct⟩
  cases looks with
  | ended _ => exact running.of_take
  | running _ _ => exact running
  | interrupted _ => exact running
  | nothing _ => exact running

/-- A wait takes nothing that is due for another child. -/
theorem Looks.due_of_ne (looks : Looks pid family answer after) (distinct : family.uncollected.Nodup)
    (apart : other ≠ pid) : after.due other = family.due other := by
  have taken : (family.take pid .shell).due other = family.due other := by
    have nodup : (family.take pid .shell).uncollected.Nodup := by
      rw [uncollected_take]
      exact distinct.filter _
    rcases family.running_ended_or_absent other with running | ⟨fate, ended⟩ | absent
    · rw [running.due distinct, (running.take apart .shell).due nodup]
    · rw [ended.due distinct, (ended.take apart .shell).due nodup]
    · have still : other ∉ (family.take pid .shell).uncollected := by
        rw [uncollected_take]
        exact fun mem => absent (List.mem_of_mem_filter mem)
      rw [due_of_not_mem absent, due_of_not_mem still]
  cases looks with
  | ended _ => exact taken
  | running _ _ => rfl
  | interrupted _ => rfl
  | nothing _ => rfl

/-- Nothing is due for a child after a look for it. -/
theorem due_look (distinct : family.uncollected.Nodup) : (family.look pid).2.due pid = [] := by
  rcases family.running_ended_or_absent pid with running | ⟨fate, ended⟩ | absent
  · rw [running.look distinct]
    exact running.due distinct
  · rw [ended.look distinct]
    have taken : pid ∉ (family.take pid .shell).uncollected := by
      rw [uncollected_take]
      intro mem
      have apart : pid ≠ pid := by simpa using List.of_mem_filter mem
      exact apart rfl
    exact due_of_not_mem taken
  · rw [look_of_not_mem absent]
    exact due_of_not_mem absent

end Family

/-! ## Lists without repetitions -/

section Repetitions

variable {α β : Type} [BEq α] [LawfulBEq α]

theorem eraseDups_filter (holds : α → Bool) (list : List α) :
    (list.filter holds).eraseDups = list.eraseDups.filter holds := by
  induction fewer : list.length using Nat.strong_induction_on generalizing list with
  | _ size ih =>
      cases list with
      | nil => rfl
      | cons first rest =>
          have shorter : (rest.filter fun other => !other == first).length < size := by
            have bound := List.length_filter_le (fun other => !other == first) rest
            simp only [List.length_cons] at fewer
            omega
          have others := ih _ shorter (rest.filter fun other => !other == first) rfl
          rw [List.filter_filter] at others
          rw [List.eraseDups_cons, List.filter_cons, List.filter_cons, ← others]
          by_cases kept : holds first = true
          · rw [if_pos kept, if_pos kept, List.eraseDups_cons, List.filter_filter]
            simp only [Bool.and_comm]
          · -- What is kept is not the first one, as that is not kept.
            have apart : (fun other => holds other && !other == first) = holds := by
              funext other
              by_cases same : other = first
              · simp [same, kept]
              · simp [same]
            rw [if_neg kept, if_neg kept, apart]

theorem flatMap_eraseDups_cons {here later : α → List β} (first : α) (rest : List α)
    (gone : later first = []) (same : ∀ other, other ≠ first → later other = here other) :
    (first :: rest).eraseDups.flatMap here = here first ++ rest.eraseDups.flatMap later := by
  have dropped (list : List α) :
      (list.filter fun other => !other == first).flatMap here = list.flatMap later := by
    induction list with
    | nil => rfl
    | cons other list ih =>
        by_cases equal : other = first
        · simp [equal, gone, ih]
        · simp [equal, same other equal, ih]
  rw [List.eraseDups_cons, List.flatMap_cons, eraseDups_filter, dropped]

end Repetitions

/-! ## One pass -/

/-- What a pass has reported, the jobs that it has left, and the children after it. -/
structure Sweep where
  collected : List Collected
  left : Registry
  family : Family
  deriving DecidableEq

namespace Sweep

/-- A child was reported before the others. -/
def report (child : Collected) (sweep : Sweep) : Sweep :=
  { sweep with collected := child :: sweep.collected }

/-- Jobs were left before the others. -/
def keep (jobs : Registry) (sweep : Sweep) : Sweep :=
  { sweep with left := jobs ++ sweep.left }

theorem keep_cons (job : Job) (jobs : Registry) (sweep : Sweep) :
    sweep.keep (job :: jobs) = (sweep.keep jobs).keep [job] :=
  rfl

theorem keep_report (child : Collected) (jobs : Registry) (sweep : Sweep) :
    (sweep.report child).keep jobs = (sweep.keep jobs).report child :=
  rfl

end Sweep

namespace Registry

/-- One pass from left to right: a job that is gone is reported, one that is running is left, and
one that cannot be polled is dropped. -/
def sweep : Registry → Family → Sweep
  | [], family => ⟨[], [], family⟩
  | job :: rest, family =>
      match family.look job.pid with
      | (.ok status, later) =>
          match status.code with
          | some code => (sweep rest later).report ⟨job.pid, code⟩
          | none => (sweep rest later).keep [job]
      | (.error _, later) => sweep rest later

section Sweeping

variable {family after final : Family} {registry kept rest left : Registry} {job : Job} {poll : Poll}
variable {answer : Except Errno WaitStatus} {status : WaitStatus} {code : Int}
variable {collected : List Collected} {trace : Shell.Trace}

/-! ### What a pass makes of an answer -/

theorem sweep_of_running (distinct : family.uncollected.Nodup)
    (running : ∀ job ∈ kept, family.Running job.pid) :
    sweep (kept ++ rest) family = (sweep rest family).keep kept := by
  induction kept with
  | nil => rfl
  | cons job kept ih =>
      obtain ⟨head, tail⟩ := List.forall_mem_cons.1 running
      rw [List.cons_append, sweep, head.look distinct, Sweep.keep_cons, ← ih tail]
      rfl

/-- A job that is gone is reported by the pass. -/
theorem sweep_gone (looks : Family.Looks job.pid family (.ok status) after)
    (distinct : family.uncollected.Nodup) (gone : status.code = some code) :
    sweep (job :: rest) family = (sweep rest after).report ⟨job.pid, code⟩ := by
  generalize told : (.ok status : Except Errno WaitStatus) = answer at looks
  cases looks with
  | ended ended =>
      rw [sweep, ended.look distinct, ← told]
      simp only [gone]
  | running _ unfinished =>
      cases told
      rw [gone] at unfinished
      cases unfinished
  | interrupted _ => cases told
  | nothing _ => cases told

/-- A job that cannot be polled is dropped by the pass. -/
theorem sweep_dropped {errno : Errno} (looks : Family.Looks job.pid family (.error errno) after)
    (distinct : family.uncollected.Nodup) (usable : interrupted (.error errno) = false) :
    sweep (job :: rest) family = sweep rest after := by
  generalize told : (.error errno : Except Errno WaitStatus) = answer at looks
  cases looks with
  | ended ended => rw [sweep, ended.look distinct, ← told]
  | running _ _ => cases told
  | interrupted _ =>
      cases told
      cases usable
  | nothing absent => rw [sweep, Family.look_of_not_mem absent]

/-! ### A drain is a pass -/

/-- Polls that are interrupted change nothing. -/
theorem unchanged_of_interrupted {pid : Pid} {earlier : List (Except Errno WaitStatus)}
    (again : ∀ reply ∈ earlier, interrupted reply = true)
    (answered : Answered Family.Serves family (earlier.map (Event.mk (.poll pid))) final) :
    final = family := by
  induction earlier generalizing family with
  | nil =>
      cases answered
      rfl
  | cons reply earlier ih =>
      obtain ⟨head, tail⟩ := List.forall_mem_cons.1 again
      cases answered with
      | cons here later =>
          have same := Family.Looks.of_interrupted here head
          rw [ih tail later, same]

/-- Polling a child until the poll is not interrupted is one look. -/
theorem looks_of_poll {pid : Pid}
    (run : Runs Family.Serves (Shell.repeatedly (.poll pid) interrupted) family trace answer final) :
    interrupted answer = false ∧ Family.Looks pid family answer final := by
  obtain ⟨earlier, rfl, usable, again⟩ := run.of_insist
  obtain ⟨middle, before, last⟩ := answered_append.1 run.answers
  have here : Family.Serves (.poll pid) middle answer final := answered_singleton.1 last
  rw [unchanged_of_interrupted again before] at here
  exact ⟨usable, here⟩

/-- What a pass over all jobs is when a poll has ended so. -/
def Resumes (poll : Poll) (left : Registry) (after : Family) (whole : Sweep) : Prop :=
  match poll with
  | .terminated pid code => whole = (sweep left after).report ⟨pid, code⟩
  | _ => whole = ⟨[], left, after⟩

theorem pollFrom_resumes (rest : Registry) :
    ∀ (kept : Registry) {family : Family} {trace : Shell.Trace}, family.uncollected.Nodup →
      (∀ job ∈ kept, family.Running job.pid) →
        Runs Family.Serves (pollFrom kept rest) family trace (poll, left) final →
          final.uncollected.Nodup ∧ Resumes poll left final (sweep (kept ++ rest) family) := by
  induction rest with
  | nil =>
      intro kept family trace distinct running run
      obtain ⟨_, same, rfl⟩ := run.of_pure
      cases same
      have whole : sweep (left ++ []) final = ⟨[], left, final⟩ := by
        rw [sweep_of_running distinct running, sweep, Sweep.keep, List.append_nil]
      rw [whole]
      refine ⟨distinct, ?_⟩
      cases left <;> rfl
  | cons job rest ih =>
      intro kept family trace distinct running run
      unfold pollFrom at run
      obtain ⟨early, late, middle, answer, rfl, asked, going⟩ := run.of_bind
      obtain ⟨usable, looks⟩ := looks_of_poll asked
      have nodup : middle.uncollected.Nodup := looks.nodup distinct
      have still : ∀ job ∈ kept, middle.Running job.pid :=
        fun job mem => (running job mem).looks looks distinct
      -- A pass over all jobs goes over those in `kept` first, before and after this poll.
      rw [sweep_of_running distinct running]
      rcases answer with errno | status
      · rw [sweep_dropped looks distinct usable, ← sweep_of_running nodup still]
        exact ih kept nodup still going
      · simp only at going
        split at going
        · next code gone =>
            obtain ⟨_, same, rfl⟩ := going.of_pure
            cases same
            refine ⟨nodup, ?_⟩
            rw [sweep_gone looks distinct gone, Sweep.keep_report, ← sweep_of_running nodup still]
            rfl
        · next unfinished =>
            obtain ⟨rfl, here⟩ := looks.running_of_unfinished unfinished
            have longer : ∀ other ∈ kept ++ [job], middle.Running other.pid := by
              intro other mem
              rcases List.mem_append.1 mem with before | last
              · exact running other before
              · rw [List.mem_singleton.1 last]
                exact here
            have same : kept ++ job :: rest = kept ++ [job] ++ rest := by simp
            rw [← sweep_of_running distinct running, same]
            exact ih (kept ++ [job]) distinct longer going

/-- A drain that has come to an end agrees with the pass. -/
theorem sweep_of_drain (distinct : family.uncollected.Nodup)
    (run : Runs Family.Serves registry.drain family trace (collected, left) final) :
    registry.sweep family = ⟨collected, left, final⟩ := by
  refine drain_induction (motive := fun registry family _ collected left final =>
    family.uncollected.Nodup → registry.sweep family = ⟨collected, left, final⟩) ?_ ?_ run distinct
  · intro registry left family trace poll final polled silent distinct
    have whole := (pollFrom_resumes registry [] distinct (by simp) polled).2
    cases poll with
    | terminated pid code => cases silent
    | noneReady => exact whole
    | noChildren => exact whole
  · intro registry rest left family middle final early late pid code collected polled later distinct
    obtain ⟨nodup, resumes⟩ := pollFrom_resumes registry [] distinct (by simp) polled
    have whole : registry.sweep family = (rest.sweep middle).report ⟨pid, code⟩ := resumes
    rw [whole, later nodup]
    rfl

theorem exists_pollFrom (rest : Registry) :
    ∀ (kept : Registry) (family : Family), ∃ trace result after,
      Runs Family.Serves (pollFrom kept rest) family trace result after := by
  induction rest with
  | nil => exact fun kept family => ⟨[], _, family, .done _ family⟩
  | cons job rest ih =>
      intro kept family
      obtain ⟨answer, later, asked⟩ : ∃ answer later, Runs Family.Serves
          (Shell.repeatedly (.poll job.pid) interrupted) family [⟨.poll job.pid, answer⟩] answer
          later :=
        ⟨_, _, .insist (Family.looks_look job.pid family) (Family.look_usable job.pid family)⟩
      unfold pollFrom
      rcases answer with errno | status
      · obtain ⟨trace, result, after, run⟩ := ih kept later
        exact ⟨_, result, after, asked.bind run⟩
      · cases gone : status.code with
        | some code =>
            refine ⟨_, (.terminated job.pid code, kept ++ rest), later, asked.bind_done ?_⟩
            simp only [gone]
            rfl
        | none =>
            obtain ⟨trace, result, after, run⟩ := ih (kept ++ [job]) later
            refine ⟨_ ++ trace, result, after, asked.bind ?_⟩
            simpa only [gone] using run

/-- A drain comes to an end, as each poll that finds a job leaves fewer of them. -/
theorem exists_drain (registry : Registry) (family : Family) : ∃ trace result after,
    Runs Family.Serves registry.drain family trace result after := by
  induction fewer : registry.length using Nat.strong_induction_on generalizing registry family with
  | _ size ih =>
      obtain ⟨early, ⟨poll, rest⟩, middle, polled⟩ := exists_pollFrom registry [] family
      have shortens := (pollOnce_yields registry).runs polled
      rw [drain_eq]
      cases poll with
      | terminated pid code =>
          have shorter : rest.length < size := fewer ▸ shortens pid code rfl
          obtain ⟨late, ⟨later, left⟩, after, run⟩ := ih rest.length shorter rest middle rfl
          have ended : Runs Family.Serves (pure (⟨pid, code⟩ :: later, left) : Shell _) after []
              (⟨pid, code⟩ :: later, left) after := .done _ after
          exact ⟨_, _, after, polled.bind (run.bind ended)⟩
      | noneReady => exact ⟨_, ([], rest), middle, polled.bind (.done _ middle)⟩
      | noChildren => exact ⟨_, ([], rest), middle, polled.bind (.done _ middle)⟩

/-- A drain ends exactly as the pass does. -/
theorem drain_iff_sweep (registry : Registry) (distinct : family.uncollected.Nodup) :
    (∃ trace, Runs Family.Serves registry.drain family trace (collected, left) final) ↔
      registry.sweep family = ⟨collected, left, final⟩ := by
  constructor
  · rintro ⟨trace, run⟩
    exact sweep_of_drain distinct run
  · intro whole
    obtain ⟨trace, ⟨collected', left'⟩, final', run⟩ := exists_drain registry family
    have same := whole.symm.trans (sweep_of_drain distinct run)
    cases same
    exact ⟨trace, run⟩

/-! ### What a pass is -/

theorem sweep_cons (job : Job) (rest : Registry) (distinct : family.uncollected.Nodup) :
    sweep (job :: rest) family =
      let others := sweep rest (family.look job.pid).2
      ⟨family.due job.pid ++ others.collected,
        (if family.Running job.pid then [job] else []) ++ others.left, others.family⟩ := by
  rcases family.running_ended_or_absent job.pid with running | ⟨fate, ended⟩ | absent
  · rw [sweep, running.look distinct, running.due distinct, if_pos running]
    rfl
  · rw [sweep, ended.look distinct, ended.due distinct, if_neg (ended.not_running distinct)]
    rcases fate.reported_cases with ⟨code, reported, final⟩ | untold
    · simp [Fate.told, reported, Except.toOption, final, Sweep.report]
    · simp [Fate.told, untold, Except.toOption]
  · have stopped : ¬ family.Running job.pid := fun running => absent running.mem_uncollected
    rw [sweep, Family.look_of_not_mem absent, Family.due_of_not_mem absent, if_neg stopped]
    rfl

theorem look_nodup (pid : Pid) (distinct : family.uncollected.Nodup) :
    (family.look pid).2.uncollected.Nodup :=
  (Family.looks_look pid family).nodup distinct

theorem sweep_nodup (registry : Registry) (distinct : family.uncollected.Nodup) :
    (registry.sweep family).family.uncollected.Nodup := by
  induction registry generalizing family with
  | nil => exact distinct
  | cons job rest ih =>
      rw [sweep_cons job rest distinct]
      exact ih (look_nodup job.pid distinct)

/-- The jobs that are left are those that are running, in order. -/
theorem sweep_left (registry : Registry) (distinct : family.uncollected.Nodup) :
    (registry.sweep family).left = registry.filter fun job => family.Running job.pid := by
  induction registry generalizing family with
  | nil => rfl
  | cons job rest ih =>
      have same : (rest.filter fun other => (family.look job.pid).2.Running other.pid) =
          rest.filter fun other => family.Running other.pid := by
        refine List.filter_congr fun other _ => ?_
        rw [decide_eq_decide]
        exact (Family.looks_look job.pid family).running_iff distinct
      rw [sweep_cons job rest distinct]
      simp only [ih (look_nodup job.pid distinct), same, List.filter_cons, decide_eq_true_eq]
      split <;> rfl

theorem sweep_running (registry : Registry) (distinct : family.uncollected.Nodup) {pid : Pid} :
    (registry.sweep family).family.Running pid ↔ family.Running pid := by
  induction registry generalizing family with
  | nil => rfl
  | cons job rest ih =>
      rw [sweep_cons job rest distinct]
      exact (ih (look_nodup job.pid distinct)).trans
        ((Family.looks_look job.pid family).running_iff distinct)

/-- A second pass finds nothing. -/
theorem sweep_again (registry : Registry) (distinct : family.uncollected.Nodup) :
    (registry.sweep family).left.sweep (registry.sweep family).family =
      ⟨[], (registry.sweep family).left, (registry.sweep family).family⟩ := by
  have running : ∀ job ∈ (registry.sweep family).left,
      (registry.sweep family).family.Running job.pid := by
    intro job mem
    rw [sweep_left registry distinct] at mem
    have here : family.Running job.pid := by simpa using List.of_mem_filter mem
    exact (sweep_running registry distinct).2 here
  have whole := @sweep_of_running _ _ [] (sweep_nodup registry distinct) running
  rwa [List.append_nil, sweep, Sweep.keep, List.append_nil] at whole

/-- What is collected is what was due for the pids, each of them taken once. -/
theorem sweep_collected (registry : Registry) (distinct : family.uncollected.Nodup) :
    (registry.sweep family).collected = (registry.map Job.pid).eraseDups.flatMap family.due := by
  induction registry generalizing family with
  | nil => rfl
  | cons job rest ih =>
      have gone : (family.look job.pid).2.due job.pid = [] := Family.due_look distinct
      have same : ∀ other, other ≠ job.pid → (family.look job.pid).2.due other = family.due other :=
        fun other apart => (Family.looks_look job.pid family).due_of_ne distinct apart
      rw [sweep_cons job rest distinct, List.map_cons, flatMap_eraseDups_cons _ _ gone same,
        ← ih (look_nodup job.pid distinct)]

theorem mem_sweep_collected (registry : Registry) (distinct : family.uncollected.Nodup)
    {child : Collected} :
    child ∈ (registry.sweep family).collected ↔ child.pid ∈ registry.map Job.pid ∧
      ∃ fate, family.Ended child.pid fate ∧ fate.told = some child.code := by
  rw [sweep_collected registry distinct, List.mem_flatMap]
  constructor
  · rintro ⟨pid, known, mem⟩
    obtain ⟨rfl, ended⟩ := (Family.mem_due distinct).1 mem
    exact ⟨List.mem_eraseDups.1 known, ended⟩
  · rintro ⟨known, ended⟩
    exact ⟨child.pid, List.mem_eraseDups.2 known, (Family.mem_due distinct).2 ⟨rfl, ended⟩⟩

/-- No pid is collected twice. -/
theorem sweep_collected_nodup (registry : Registry) (distinct : family.uncollected.Nodup) :
    ((registry.sweep family).collected.map Collected.pid).Nodup := by
  induction registry generalizing family with
  | nil => exact List.nodup_nil
  | cons job rest ih =>
      have nodup := look_nodup job.pid distinct
      have first : (family.due job.pid).map Collected.pid = [] ∨
          (family.due job.pid).map Collected.pid = [job.pid] := by
        unfold Family.due Collected.ofAnswer
        cases (family.look job.pid).1.toOption.bind WaitStatus.code with
        | none => exact .inl rfl
        | some code => exact .inr rfl
      -- Nothing is due for the first pid any more, so the others do not have it.
      have apart : job.pid ∉ (sweep rest (family.look job.pid).2).collected.map Collected.pid := by
        intro mem
        obtain ⟨child, there, same⟩ := List.mem_map.1 mem
        obtain ⟨_, ended⟩ := (mem_sweep_collected rest nodup).1 there
        have due := (Family.mem_due nodup).2 ⟨same, same ▸ ended⟩
        rw [Family.due_look distinct] at due
        cases due
      rw [sweep_cons job rest distinct]
      simp only [List.map_append]
      rcases first with none | one
      · rw [none]
        exact ih nodup
      · rw [one]
        exact List.nodup_cons.2 ⟨apart, ih nodup⟩

end Sweeping

/-- When no child changes except by the polls, a drain ends as one pass does: it reports the children
that have ended, in the order of their first entries, leaves the jobs that are running, in order, and
a second drain finds nothing. -/
theorem drain_sweeps (registry : Registry) {family : Family} (distinct : family.uncollected.Nodup) :
    let whole := registry.sweep family
    (∀ collected left final,
      (∃ trace, Runs Family.Serves registry.drain family trace (collected, left) final) ↔
        whole = ⟨collected, left, final⟩) ∧
    whole.collected = (registry.map Job.pid).eraseDups.flatMap family.due ∧
    (whole.collected.map Collected.pid).Nodup ∧
    (∀ child, child ∈ whole.collected ↔ child.pid ∈ registry.map Job.pid ∧
      ∃ fate, family.Ended child.pid fate ∧ fate.told = some child.code) ∧
    whole.left = (registry.filter fun job => family.Running job.pid) ∧
    ∀ collected left final,
      (∃ trace, Runs Family.Serves whole.left.drain whole.family trace (collected, left) final) ↔
        collected = [] ∧ left = whole.left ∧ final = whole.family := by
  intro whole
  refine ⟨fun collected left final => drain_iff_sweep registry distinct,
    sweep_collected registry distinct, sweep_collected_nodup registry distinct,
    fun child => mem_sweep_collected registry distinct, sweep_left registry distinct,
    fun collected left final => ?_⟩
  rw [drain_iff_sweep whole.left (sweep_nodup registry distinct), sweep_again registry distinct]
  constructor
  · intro same
    cases same
    exact ⟨rfl, rfl, rfl⟩
  · rintro ⟨rfl, rfl, rfl⟩
    rfl

/-- Entries that are repeated, and one for a child that was never started. -/
theorem drain_sweeps_repeated :
    let registry : Registry := [⟨3, true⟩, ⟨2, true⟩, ⟨1, true⟩, ⟨3, true⟩, ⟨9, true⟩, ⟨2, true⟩]
    Family.mixed.uncollected.Nodup ∧ ∃ trace final, Runs Family.Serves registry.drain Family.mixed trace
      ([⟨3, 0⟩, ⟨1, 5⟩], [⟨2, true⟩, ⟨2, true⟩]) final := by
  intro registry
  have distinct : Family.mixed.uncollected.Nodup := by decide
  have collected : (registry.sweep Family.mixed).collected = [⟨3, 0⟩, ⟨1, 5⟩] := by decide +kernel
  have left : (registry.sweep Family.mixed).left = [⟨2, true⟩, ⟨2, true⟩] := by decide +kernel
  have whole : registry.sweep Family.mixed = ⟨[⟨3, 0⟩, ⟨1, 5⟩], [⟨2, true⟩, ⟨2, true⟩],
      (registry.sweep Family.mixed).family⟩ := by
    rw [← collected, ← left]
  obtain ⟨ends, _⟩ := drain_sweeps registry distinct
  obtain ⟨trace, run⟩ := (ends _ _ _).2 whole
  exact ⟨distinct, trace, _, run⟩

end Registry

end LineShell
