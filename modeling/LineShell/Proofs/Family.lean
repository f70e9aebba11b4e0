/-
# LineShell.Proofs.Family -- the children of the shell, as the system keeps them

A `Family` lists every child that was ever started, oldest first.  A child stays in
the list when it is gone, with how it ended and with everybody who has taken its
status, so that two children that had the same pid at different times are told
apart by their places.  A child is *uncollected* until somebody takes its status.

`Family.Serves` says which answers the system may give to a call of the shell:
starting a child and making a pipe succeed, a new pid is not the pid of an
uncollected child, and a wait for an uncollected child takes its status once it has
ended.  A wait for any other pid finds nothing.  Between two calls other things
happen; which ones is a parameter of `Family.Answers`: children end
(`Family.Ends`), and where that is allowed somebody else takes a status
(`Family.Meddles`).

`serve` is one such system, and `settle` a drift that it can be run with.

Nothing is ever forgotten (`Ages.serves`), so a fact about a child that was started
earlier can be looked up later at the same place.
-/
import LineShell.Host.Kernel
import LineShell.Request
import Mathlib.Data.List.MinMax
import Mathlib.Data.List.Nodup
import Mathlib.Logic.Relation

namespace LineShell

set_option autoImplicit false

/-- Who has taken the status of a child. -/
inductive Taker where
  | shell
  | stranger
  deriving DecidableEq, Repr

/-- How a child ends. -/
inductive Fate where
  | exited (code : Int)
  | killed (signal : Nat) (core : Bool)
  deriving DecidableEq, Repr

namespace Fate

/-- The status of a child that has ended. -/
def status : Fate → WaitStatus
  | .exited code => .exited code
  | .killed signal core => .signaled signal core

/-- What a wait is told about an ended child; there is no report of a signal without a name. -/
def reported : Fate → Except Errno WaitStatus
  | .exited code => .ok (.exited code)
  | .killed signal core =>
      if Task.lastReportable < signal then .error .EINVAL else .ok (.signaled signal core)

/-- The exit code, if a wait is told of it. -/
def told (fate : Fate) : Option Int :=
  fate.reported.toOption.bind WaitStatus.code

/-- A report is the status, which is final, or says that it cannot be told. -/
theorem reported_cases (fate : Fate) :
    (∃ code, fate.reported = .ok fate.status ∧ fate.status.code = some code) ∨
      fate.reported = .error .EINVAL := by
  cases fate with
  | exited code => exact .inl ⟨code, rfl, rfl⟩
  | killed signal core =>
      by_cases named : Task.lastReportable < signal
      · exact .inr (by simp [reported, named])
      · exact .inl ⟨128 + signal, by simp [reported, named, status], rfl⟩

/-- A signal without a name is all that cannot be told. -/
theorem unreported {fate : Fate} {errno : Errno} (untold : fate.reported = .error errno) :
    ∃ signal core, fate = .killed signal core ∧ Task.lastReportable < signal := by
  cases fate with
  | exited code => simp [reported] at untold
  | killed signal core =>
      by_cases named : Task.lastReportable < signal
      · exact ⟨signal, core, rfl, named⟩
      · simp [reported, named] at untold

end Fate

/-- A child that was started: how it has ended, if it has, and who has taken its status, in order. -/
structure Offspring where
  pid : Pid
  child : Child
  ending : Option Fate
  takers : List Taker
  deriving DecidableEq

/-- Every child that was ever started, oldest first. -/
abbrev Family := List Offspring

namespace Offspring

/-- Nobody has taken the status yet. -/
def isUncollected (one : Offspring) : Bool :=
  one.takers.isEmpty

/-- `later` is the same child at a later time. -/
structure Ages (one later : Offspring) : Prop where
  pid : later.pid = one.pid
  child : later.child = one.child
  ending : ∀ fate, one.ending = some fate → later.ending = some fate
  takers : one.takers <+: later.takers

theorem Ages.refl (one : Offspring) : Ages one one :=
  ⟨rfl, rfl, fun _ known => known, List.prefix_rfl⟩

theorem Ages.trans {first middle last : Offspring} (early : Ages first middle)
    (late : Ages middle last) : Ages first last :=
  ⟨late.pid.trans early.pid, late.child.trans early.child,
    fun fate known => late.ending fate (early.ending fate known),
    early.takers.trans late.takers⟩

end Offspring

namespace Family

/-- The pids of the uncollected children, in the order of their starts. -/
def uncollected (family : Family) : List Pid :=
  (family.filter Offspring.isUncollected).map Offspring.pid

/-- The pids and images that children were started with. -/
def births (family : Family) : List (Pid × Child) :=
  family.map fun one => (one.pid, one.child)

/-- An uncollected child has ended. -/
def Ended (family : Family) (pid : Pid) (fate : Fate) : Prop :=
  ∃ one ∈ family, one.pid = pid ∧ one.takers = [] ∧ one.ending = some fate

/-- An uncollected child has not ended. -/
def Running (family : Family) (pid : Pid) : Prop :=
  ∃ one ∈ family, one.pid = pid ∧ one.takers = [] ∧ one.ending = none

/-! ## What happens to children -/

/-- A child is started. -/
def bear (family : Family) (pid : Pid) (child : Child) : Family :=
  family ++ [⟨pid, child, none, []⟩]

/-- Change the uncollected child that has a pid. -/
def mark (family : Family) (pid : Pid) (change : Offspring → Offspring) : Family :=
  family.map fun one => if one.pid = pid ∧ one.takers = [] then change one else one

/-- A child ends; an ending that is known stays. -/
def finish (family : Family) (pid : Pid) (fate : Fate) : Family :=
  family.mark pid fun one => { one with ending := some (one.ending.getD fate) }

/-- Somebody takes the status of a child. -/
def take (family : Family) (pid : Pid) (taker : Taker) : Family :=
  family.mark pid fun one => { one with takers := one.takers ++ [taker] }

@[simp] theorem uncollected_bear (family : Family) (pid : Pid) (child : Child) :
    (family.bear pid child).uncollected = family.uncollected ++ [pid] := by
  have fresh : Offspring.isUncollected ⟨pid, child, none, []⟩ = true := rfl
  simp [bear, uncollected, fresh]

theorem uncollected_cons (one : Offspring) (rest : Family) :
    uncollected (one :: rest) = (if one.takers = [] then [one.pid] else []) ++ uncollected rest := by
  by_cases free : one.takers = [] <;> simp [uncollected, Offspring.isUncollected, free]

theorem finish_cons (one : Offspring) (rest : Family) (pid : Pid) (fate : Fate) :
    finish (one :: rest) pid fate =
      (if one.pid = pid ∧ one.takers = [] then { one with ending := some (one.ending.getD fate) }
        else one) :: finish rest pid fate :=
  rfl

theorem take_cons (one : Offspring) (rest : Family) (pid : Pid) (taker : Taker) :
    take (one :: rest) pid taker =
      (if one.pid = pid ∧ one.takers = [] then { one with takers := one.takers ++ [taker] }
        else one) :: take rest pid taker :=
  rfl

@[simp] theorem uncollected_finish (family : Family) (pid : Pid) (fate : Fate) :
    (family.finish pid fate).uncollected = family.uncollected := by
  induction family with
  | nil => rfl
  | cons one rest ih =>
      rw [finish_cons, uncollected_cons, uncollected_cons, ih]
      split <;> rfl

/-- Taking a status leaves the other uncollected children. -/
@[simp] theorem uncollected_take (family : Family) (pid : Pid) (taker : Taker) :
    (family.take pid taker).uncollected = family.uncollected.filter (· ≠ pid) := by
  induction family with
  | nil => rfl
  | cons one rest ih =>
      rw [take_cons, uncollected_cons, uncollected_cons, List.filter_append, ih]
      by_cases free : one.takers = []
      · by_cases same : one.pid = pid <;> simp [free, same]
      · simp [free]

@[simp] theorem births_bear (family : Family) (pid : Pid) (child : Child) :
    (family.bear pid child).births = family.births ++ [(pid, child)] := by
  simp [bear, births]

theorem births_mark (family : Family) (pid : Pid) {change : Offspring → Offspring}
    (keeps : ∀ one, (change one).pid = one.pid ∧ (change one).child = one.child) :
    (family.mark pid change).births = family.births := by
  simp only [births, mark, List.map_map]
  refine List.map_congr_left fun one _ => ?_
  simp only [Function.comp]
  split
  · simp [keeps one]
  · rfl

@[simp] theorem births_finish (family : Family) (pid : Pid) (fate : Fate) :
    (family.finish pid fate).births = family.births :=
  births_mark family pid fun _ => ⟨rfl, rfl⟩

@[simp] theorem births_take (family : Family) (pid : Pid) (taker : Taker) :
    (family.take pid taker).births = family.births :=
  births_mark family pid fun _ => ⟨rfl, rfl⟩

theorem mem_uncollected {family : Family} {pid : Pid} :
    pid ∈ family.uncollected ↔ ∃ one ∈ family, one.pid = pid ∧ one.takers = [] := by
  simp [uncollected, Offspring.isUncollected, and_assoc, and_comm]

theorem Ended.mem_uncollected {family : Family} {pid : Pid} {fate : Fate}
    (ended : family.Ended pid fate) : pid ∈ family.uncollected := by
  obtain ⟨one, mem, rightPid, free, _⟩ := ended
  exact Family.mem_uncollected.2 ⟨one, mem, rightPid, free⟩

theorem Running.mem_uncollected {family : Family} {pid : Pid} (running : family.Running pid) :
    pid ∈ family.uncollected := by
  obtain ⟨one, mem, rightPid, free, _⟩ := running
  exact Family.mem_uncollected.2 ⟨one, mem, rightPid, free⟩

/-- The child with a pid is running, has ended, or is not there. -/
theorem running_ended_or_absent (family : Family) (pid : Pid) :
    family.Running pid ∨ (∃ fate, family.Ended pid fate) ∨ pid ∉ family.uncollected := by
  by_cases known : pid ∈ family.uncollected
  · obtain ⟨one, mem, rightPid, free⟩ := mem_uncollected.1 known
    cases ending : one.ending with
    | none => exact .inl ⟨one, mem, rightPid, free, ending⟩
    | some fate => exact .inr (.inl ⟨fate, one, mem, rightPid, free, ending⟩)
  · exact .inr (.inr known)

/-! ## Answers of the system -/

/-- What a wait for a pid finds. -/
inductive Looks (pid : Pid) (family : Family) : Except Errno WaitStatus → Family → Prop where
  /-- The child has ended, and its status is taken. -/
  | ended {fate : Fate} : family.Ended pid fate →
      Looks pid family fate.reported (family.take pid .shell)
  /-- The child has not ended. -/
  | running {status : WaitStatus} : family.Running pid → status.code = none →
      Looks pid family (.ok status) family
  | interrupted : pid ∈ family.uncollected → Looks pid family (.error .EINTR) family
  /-- There is no such child, or its status has been taken. -/
  | nothing : pid ∉ family.uncollected → Looks pid family (.error .ECHILD) family

/-- A child whose status is not final is running, and the wait has changed nothing. -/
theorem Looks.running_of_unfinished {pid : Pid} {family after : Family} {status : WaitStatus}
    (looks : Looks pid family (.ok status) after) (unfinished : status.code = none) :
    after = family ∧ family.Running pid := by
  generalize told : (.ok status : Except Errno WaitStatus) = answer at looks
  cases looks with
  | @ended fate _ =>
      rcases fate.reported_cases with ⟨code, reported, final⟩ | untold
      · obtain rfl : status = fate.status := Except.ok.inj (told.trans reported)
        rw [final] at unfinished
        cases unfinished
      · cases told.trans untold
  | running running _ => exact ⟨rfl, running⟩
  | interrupted _ => cases told
  | nothing _ => cases told

/-- The answers to the calls of the shell. -/
def Serves : (call : Request) → Family → call.Answer → Family → Prop
  | .pathExists _, before, _, after => after = before
  | .canonicalize _, before, _, after => after = before
  | .isDirectory _, before, _, after => after = before
  | .pipe, before, answer, after => (∃ ends, answer = .ok ends) ∧ after = before
  | .close _, before, _, after => after = before
  | .fork child, before, answer, after =>
      ∃ pid, pid ∉ before.uncollected ∧ answer = .ok pid ∧ after = before.bear pid child
  | .wait pid, before, answer, after => Looks pid before answer after
  | .poll pid, before, answer, after => Looks pid before answer after

/-- A child ends. -/
inductive Ends (family : Family) : Family → Prop where
  | ends {pid : Pid} (fate : Fate) : family.Running pid → Ends family (family.finish pid fate)

/-- A child ends, or somebody else takes the status of one that has ended. -/
inductive Meddles (family : Family) : Family → Prop where
  | ends {after : Family} : family.Ends after → Meddles family after
  | steals {pid : Pid} {fate : Fate} : family.Ended pid fate →
      Meddles family (family.take pid .stranger)

/-- The answers of a system in which `drift` may happen at any time before a call is served. -/
def Answers (drift : Family → Family → Prop) (call : Request) (before : Family)
    (answer : call.Answer) (after : Family) : Prop :=
  ∃ middle, Relation.ReflTransGen drift before middle ∧ Serves call middle answer after

/-! ## A system that answers in one way -/

/-- What a wait finds when it is not interrupted. -/
def look (pid : Pid) (family : Family) : Except Errno WaitStatus × Family :=
  match family.find? fun one => one.pid = pid ∧ one.takers = [] with
  | none => (.error .ECHILD, family)
  | some one =>
      match one.ending with
      | none => (.ok .stillAlive, family)
      | some fate => (fate.reported, family.take pid .shell)

/-- A system in which every path exists and a new pid is the lowest one above those in use. -/
def serve : (call : Request) → Family → call.Answer × Family
  | .pathExists _, family => (true, family)
  | .canonicalize path, family => (.ok path, family)
  | .isDirectory _, family => (true, family)
  | .pipe, family => (.ok ⟨3, 4⟩, family)
  | .close _, family => ((), family)
  | .fork child, family =>
      let pid : Pid := ⟨(family.uncollected.map Pid.number).foldr max 0 + 1, Nat.succ_pos _⟩
      (.ok pid, family.bear pid child)
  | .wait pid, family => look pid family
  | .poll pid, family => look pid family

theorem looks_look (pid : Pid) (family : Family) :
    Looks pid family (look pid family).1 (look pid family).2 := by
  unfold look
  split
  · next absent =>
      refine .nothing fun known => ?_
      obtain ⟨one, mem, rightPid, free⟩ := mem_uncollected.1 known
      simpa [rightPid, free] using List.find?_eq_none.1 absent one mem
  · next one found =>
      have mem := List.mem_of_find?_eq_some found
      obtain ⟨rightPid, free⟩ : one.pid = pid ∧ one.takers = [] := by
        simpa using List.find?_some found
      split
      · next unended => exact .running ⟨one, mem, rightPid, free, unended⟩ rfl
      · next fate ended => exact .ended ⟨one, mem, rightPid, free, ended⟩

theorem serves_serve (call : Request) (family : Family) :
    Serves call family (serve call family).1 (serve call family).2 := by
  cases call with
  | pathExists path => rfl
  | canonicalize path => rfl
  | isDirectory path => rfl
  | pipe => exact ⟨⟨_, rfl⟩, rfl⟩
  | close descriptor => rfl
  | fork child =>
      refine ⟨_, fun known => ?_, rfl, rfl⟩
      have counted := List.mem_map_of_mem (f := Pid.number) known
      exact Nat.not_succ_le_self _ (List.le_max_of_le' 0 counted le_rfl)
  | wait pid => exact looks_look pid family
  | poll pid => exact looks_look pid family

/-- A child that is asked for ends with code 0, unless it has ended before. -/
def settle : Request → Family → Family
  | .wait pid, family => family.finish pid (.exited 0)
  | .poll pid, family => family.finish pid (.exited 0)
  | _, family => family

theorem settle_ends (call : Request) (family : Family) :
    Relation.ReflTransGen Ends family (family.settle call) := by
  have finished (pid : Pid) : Relation.ReflTransGen Ends family (family.finish pid (.exited 0)) := by
    by_cases running : family.Running pid
    · exact .single (.ends _ running)
    · -- Every child that would be marked has ended, and its ending stays.
      have same : family.finish pid (.exited 0) = family := by
        refine (List.map_congr_left fun one mem => ?_).trans (List.map_id family)
        split
        · next marked =>
            obtain ⟨fate, ended⟩ := Option.ne_none_iff_exists'.1
              fun unended => running ⟨one, mem, marked.1, marked.2, unended⟩
            simp only [ended, Option.getD_some, id_eq]
            rw [← ended]
        · rfl
      exact same.symm ▸ .refl
  cases call with
  | wait pid => exact finished pid
  | poll pid => exact finished pid
  | _ => exact .refl

theorem settle_meddles (call : Request) (family : Family) :
    Relation.ReflTransGen Meddles family (family.settle call) :=
  Relation.ReflTransGen.mono (fun _ _ => Meddles.ends) _ _ (settle_ends call family)

/-- Answer a call when the child that it asks for has ended. -/
def promptly (call : Request) (family : Family) : Option (call.Answer × Family) :=
  some (Family.serve call (family.settle call))

theorem serves_of_promptly {call : Request} {family after : Family} {answer : call.Answer}
    (answered : promptly call family = some (answer, after)) :
    Serves call (family.settle call) answer after := by
  have served := Option.some.inj answered
  simpa [served] using serves_serve call (family.settle call)

theorem promptly_answers (call : Request) (family : Family) (answer : call.Answer)
    (after : Family) (answered : promptly call family = some (answer, after)) :
    Answers Ends call family answer after :=
  ⟨family.settle call, settle_ends call family, serves_of_promptly answered⟩

/-! ## Children with distinct pids -/

section Distinct

variable {family : Family} {pid other : Pid} {fate : Fate}

/-- An uncollected child can be told from the others by its pid. -/
theorem eq_of_pid {one later : Offspring} (distinct : family.uncollected.Nodup) (mem : one ∈ family)
    (also : later ∈ family) (free : one.takers = []) (freeLater : later.takers = [])
    (same : one.pid = later.pid) : one = later := by
  have kept : one ∈ family.filter Offspring.isUncollected :=
    List.mem_filter.2 ⟨mem, by simp [Offspring.isUncollected, free]⟩
  have keptLater : later ∈ family.filter Offspring.isUncollected :=
    List.mem_filter.2 ⟨also, by simp [Offspring.isUncollected, freeLater]⟩
  exact List.inj_on_of_nodup_map distinct kept keptLater same

theorem Ended.not_running (ended : family.Ended pid fate) (distinct : family.uncollected.Nodup) :
    ¬ family.Running pid := by
  obtain ⟨one, mem, rfl, free, fated⟩ := ended
  rintro ⟨later, also, same, freeLater, unended⟩
  obtain rfl := eq_of_pid distinct mem also free freeLater same.symm
  rw [fated] at unended
  cases unended

theorem Ended.unique {found : Fate} (ended : family.Ended pid fate) (also : family.Ended pid found)
    (distinct : family.uncollected.Nodup) : fate = found := by
  obtain ⟨one, mem, rfl, free, fated⟩ := ended
  obtain ⟨later, memLater, same, freeLater, fatedLater⟩ := also
  obtain rfl := eq_of_pid distinct mem memLater free freeLater same.symm
  exact Option.some.inj (fated.symm.trans fatedLater)

/-- Taking a status changes no uncollected child with another pid. -/
theorem mem_take_of_ne {one : Offspring} (mem : one ∈ family) (apart : one.pid ≠ pid) (taker : Taker) :
    one ∈ family.take pid taker :=
  List.mem_map.2 ⟨one, mem, if_neg fun marked => apart marked.1⟩

theorem Running.take (running : family.Running pid) (apart : pid ≠ other) (taker : Taker) :
    (family.take other taker).Running pid := by
  obtain ⟨one, mem, rfl, free, unended⟩ := running
  exact ⟨one, mem_take_of_ne mem apart taker, rfl, free, unended⟩

theorem Ended.take (ended : family.Ended pid fate) (apart : pid ≠ other) (taker : Taker) :
    (family.take other taker).Ended pid fate := by
  obtain ⟨one, mem, rfl, free, fated⟩ := ended
  exact ⟨one, mem_take_of_ne mem apart taker, rfl, free, fated⟩

/-- A wait for a child leaves the running ones running. -/
theorem Running.looks {answer : Except Errno WaitStatus} {after : Family}
    (running : family.Running pid) (looks : Looks other family answer after)
    (distinct : family.uncollected.Nodup) : after.Running pid := by
  cases looks with
  | ended ended =>
      have apart : pid ≠ other := by
        rintro rfl
        exact ended.not_running distinct running
      exact running.take apart .shell
  | running _ _ => exact running
  | interrupted _ => exact running
  | nothing _ => exact running

/-- A wait makes no child uncollected. -/
theorem Looks.uncollected {answer : Except Errno WaitStatus} {after : Family}
    (looks : Looks pid family answer after) : after.uncollected.Sublist family.uncollected := by
  cases looks with
  | ended _ =>
      rw [uncollected_take]
      exact List.filter_sublist
  | running _ _ => exact .refl _
  | interrupted _ => exact .refl _
  | nothing _ => exact .refl _

/-- Nor does anything that happens between the calls. -/
theorem Meddles.uncollected {after : Family} (meddles : family.Meddles after) :
    after.uncollected.Sublist family.uncollected := by
  cases meddles with
  | ends ended =>
      cases ended with
      | ends fate _ => rw [uncollected_finish]
  | steals _ =>
      rw [uncollected_take]
      exact List.filter_sublist

end Distinct

/-! ## Every child is uncollected or was taken once -/

/-- How often somebody has taken the status of a child with that pid. -/
def takes (family : Family) (pid : Pid) (taker : Taker) : Nat :=
  ((family.filter (·.pid = pid)).flatMap Offspring.takers).count taker

theorem takes_cons (one : Offspring) (rest : Family) (pid : Pid) (taker : Taker) :
    takes (one :: rest) pid taker =
      (if one.pid = pid then one.takers.count taker else 0) + takes rest pid taker := by
  by_cases same : one.pid = pid <;> simp [takes, same]

@[simp] theorem takes_bear (family : Family) (pid other : Pid) (child : Child) (taker : Taker) :
    (family.bear pid child).takes other taker = family.takes other taker := by
  by_cases same : pid = other <;> simp [takes, bear, same]

@[simp] theorem takes_finish (family : Family) (pid other : Pid) (fate : Fate) (taker : Taker) :
    (family.finish pid fate).takes other taker = family.takes other taker := by
  induction family with
  | nil => rfl
  | cons one rest ih =>
      rw [finish_cons, takes_cons, takes_cons, ih]
      split <;> rfl

theorem takes_take (family : Family) (pid other : Pid) (taker who : Taker) :
    (family.take pid taker).takes other who =
      family.takes other who +
        if other = pid ∧ who = taker then family.uncollected.count pid else 0 := by
  induction family with
  | nil => simp [take, mark, takes, uncollected]
  | cons one rest ih =>
      rw [take_cons, takes_cons, takes_cons, uncollected_cons, ih]
      by_cases free : one.takers = []
      · by_cases same : one.pid = pid
        · by_cases asked : other = pid
          · by_cases taken : who = taker
            · simp [free, same, asked, taken]
              omega
            · simp [free, same, asked, taken, Ne.symm taken]
          · simp [free, same, asked, Ne.symm asked]
        · simp [free, same]
      · simp [free, Nat.add_assoc]

/-- Each child that was started is still uncollected, or was taken by exactly one. -/
def Conserved (family : Family) : Prop :=
  ∀ pid, family.uncollected.count pid + family.takes pid .shell + family.takes pid .stranger =
    (family.births.map Prod.fst).count pid

theorem conserved_nil : Conserved [] :=
  fun _ => rfl

theorem Conserved.bear {family : Family} (conserved : family.Conserved) (pid : Pid) (child : Child) :
    (family.bear pid child).Conserved := by
  intro other
  have before := conserved other
  simp only [uncollected_bear, takes_bear, births_bear, List.count_append, List.map_append,
    List.map_cons, List.map_nil]
  omega

theorem Conserved.finish {family : Family} (conserved : family.Conserved) (pid : Pid) (fate : Fate) :
    (family.finish pid fate).Conserved := by
  intro other
  simpa using conserved other

theorem Conserved.take {family : Family} (conserved : family.Conserved) (pid : Pid) (taker : Taker) :
    (family.take pid taker).Conserved := by
  intro other
  have before := conserved other
  rw [takes_take, takes_take, uncollected_take, births_take]
  by_cases same : other = pid
  · subst same
    have gone : (family.uncollected.filter (· ≠ other)).count other = 0 := by
      simp [List.count_eq_zero]
    cases taker <;> simp_all <;> omega
  · have kept : (family.uncollected.filter (· ≠ pid)).count other = family.uncollected.count other :=
      List.count_filter (by simpa using same)
    simp_all

/-! ## Nothing is forgotten -/

/-- Every child of `before` is at the same place in `after`, at a later time. -/
def Ages (before after : Family) : Prop :=
  ∀ (place : Nat) (one : Offspring), before[place]? = some one →
    ∃ later, after[place]? = some later ∧ one.Ages later

theorem Ages.refl (family : Family) : family.Ages family :=
  fun _ one found => ⟨one, found, .refl one⟩

theorem Ages.trans {first middle last : Family} (early : first.Ages middle)
    (late : middle.Ages last) : first.Ages last := by
  intro place one found
  obtain ⟨met, found, aged⟩ := early place one found
  obtain ⟨now, found, agedMore⟩ := late place met found
  exact ⟨now, found, aged.trans agedMore⟩

theorem ages_bear (family : Family) (pid : Pid) (child : Child) :
    family.Ages (family.bear pid child) := by
  intro place one found
  obtain ⟨inside, _⟩ := List.getElem?_eq_some_iff.1 found
  exact ⟨one, by simpa [bear, List.getElem?_append_left inside] using found, .refl one⟩

theorem ages_mark (family : Family) (pid : Pid) {change : Offspring → Offspring}
    (ages : ∀ one : Offspring, one.Ages (change one)) : family.Ages (family.mark pid change) := by
  intro place one found
  refine ⟨if one.pid = pid ∧ one.takers = [] then change one else one, ?_, ?_⟩
  · simp [mark, found]
  · split
    · exact ages one
    · exact .refl one

theorem ages_finish (family : Family) (pid : Pid) (fate : Fate) :
    family.Ages (family.finish pid fate) :=
  ages_mark family pid fun _ => ⟨rfl, rfl, fun _ known => by simp [known], List.prefix_rfl⟩

theorem ages_take (family : Family) (pid : Pid) (taker : Taker) :
    family.Ages (family.take pid taker) :=
  ages_mark family pid fun _ => ⟨rfl, rfl, fun _ known => known, List.prefix_append _ _⟩

theorem Ages.ends {before after : Family} (ends : before.Ends after) : before.Ages after := by
  cases ends with
  | ends _ _ => exact ages_finish _ _ _

theorem Ages.meddles {before after : Family} (meddles : before.Meddles after) :
    before.Ages after := by
  cases meddles with
  | ends ends => exact .ends ends
  | steals _ => exact ages_take _ _ _

theorem Ages.looks {pid : Pid} {before after : Family} {answer : Except Errno WaitStatus}
    (looks : Looks pid before answer after) : before.Ages after := by
  cases looks with
  | ended _ => exact ages_take _ _ _
  | running _ _ => exact .refl before
  | interrupted _ => exact .refl before
  | nothing _ => exact .refl before

theorem Ages.serves {call : Request} {before after : Family} {answer : call.Answer}
    (serves : Serves call before answer after) : before.Ages after := by
  cases call with
  | pathExists path => exact serves ▸ .refl before
  | canonicalize path => exact serves ▸ .refl before
  | isDirectory path => exact serves ▸ .refl before
  | pipe => exact serves.2 ▸ .refl before
  | close descriptor => exact serves ▸ .refl before
  | fork child =>
      obtain ⟨pid, _, _, rfl⟩ := serves
      exact ages_bear _ _ _
  | wait pid => exact .looks serves
  | poll pid => exact .looks serves

/-- A property that a drift keeps is kept while it goes on. -/
theorem drift_keeps {drift : Family → Family → Prop} {kept : Family → Prop}
    (keeps : ∀ before after, drift before after → kept before → kept after)
    {before after : Family} (drifts : Relation.ReflTransGen drift before after) (holds : kept before) :
    kept after := by
  induction drifts with
  | refl => exact holds
  | tail _ last ih => exact keeps _ _ last ih

theorem Ages.answers {drift : Family → Family → Prop}
    (drifts : ∀ before after, drift before after → before.Ages after) {call : Request}
    {before after : Family} {answer : call.Answer} (answered : Answers drift call before answer after) :
    before.Ages after := by
  obtain ⟨middle, drifted, served⟩ := answered
  have aged : before.Ages middle :=
    drift_keeps (fun _ _ last early => early.trans (drifts _ _ last)) drifted (.refl before)
  exact aged.trans (.serves served)

end Family

end LineShell
