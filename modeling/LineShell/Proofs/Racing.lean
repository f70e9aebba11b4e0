/-
# LineShell.Proofs.Racing -- a drain while children go on

While a drain polls, children end, some of them after they were polled, and others may take
a status.  What the drain says is still right: a job that was gone before the drain began is
gone from the registry, its code is reported if nobody else has taken it, and a job that is
left was found running after the last report.

There are two halves.  `Registry.Drains` is about the calls, under any system: each job is
polled, and the polls after the last report are one whole round, whose running jobs are what
is left.  `Family.Follows` is about the children: none is started, and what has happened to
one has happened.  A poll of a child that has ended therefore takes its status, unless this
was taken before (`Family.reported_of_polled`), and no status is taken twice
(`Family.delivers_of_answered`).
-/
import LineShell.Proofs.Life
import LineShell.Proofs.Sweeping

namespace LineShell

set_option autoImplicit false

open Program

/-! ## The polls of a drain -/

/-- The pid of a child that a poll has found running. -/
def alive? : Event Request Request.Answer → Option Pid
  | ⟨.poll pid, .ok status⟩ => if status.code.isNone then some pid else none
  | _ => none

namespace Finding

theorem alive?_event (finding : Finding) :
    alive? finding.event = if finding.isPending then some finding.job.pid else none := by
  obtain ⟨job, answer⟩ := finding
  cases answer <;> rfl

theorem filterMap_alive? (findings : List Finding) :
    (findings.map event).filterMap alive? = (pending findings).map Job.pid := by
  induction findings with
  | nil => rfl
  | cons finding findings ih =>
      rw [List.map_cons, List.filterMap_cons, alive?_event, ih, pending, pending, List.filter_cons]
      cases finding.isPending <;> rfl

end Finding

theorem alive?_uninterrupted (trace : Shell.Trace) :
    (uninterrupted trace).filterMap alive? = trace.filterMap alive? := by
  induction trace with
  | nil => rfl
  | cons event trace ih =>
      rw [uninterrupted, List.filter_cons, List.filterMap_cons, ← ih]
      by_cases again : wasInterrupted event = true
      · have none : alive? event = none := by
          obtain ⟨call, answer⟩ := event
          cases call with
          | poll pid =>
              have errno : answer = .error .EINTR := Registry.interrupted_iff.1 again
              rw [errno]
              rfl
          | _ => rfl
        simp only [again, none]
        rfl
      · simp [again, uninterrupted, List.filterMap_cons]

namespace Registry

variable {registry rest left : Registry} {poll : Poll}

/-- What the calls of a drain say, whatever the system is. -/
structure Drains (registry : Registry) (trace : Shell.Trace) (collected : List Collected)
    (left : Registry) : Prop where
  /-- Every job is polled until there is an answer. -/
  polled : ∀ job ∈ registry, ∃ answer, ⟨.poll job.pid, answer⟩ ∈ uninterrupted trace
  registered : ∀ child ∈ collected, child.pid ∈ registry.map Job.pid
  order : left.Sublist registry
  /-- The polls after the last report found exactly the jobs running that are left. -/
  seen : ∃ early late, trace = early ++ late ∧ late.flatMap Collected.ofEvent = [] ∧
    late.filterMap alive? = left.map Job.pid

section

variable {σ : Type} {step : (call : Request) → σ → call.Answer → σ → Prop} {state final : σ}
variable {trace : Shell.Trace} {collected : List Collected}

/-- A round without a report is the last one. -/
theorem drains_of_silent (polled : Runs step registry.pollOnce state trace (poll, left) final)
    (silent : Collected.ofPoll poll = []) : Drains registry trace [] left := by
  obtain ⟨findings, calls, round⟩ := reviewed_of_pollFrom registry [] polled
  obtain ⟨told, _⟩ := polled_of_pollFrom registry [] polled
  obtain ⟨pending, all⟩ := round.of_silent silent
  refine ⟨fun job mem => ?_, by simp, round.sublist, [], trace, rfl, told.symm.trans silent, ?_⟩
  · rw [all] at mem
    obtain ⟨finding, there, rfl⟩ := List.mem_map.1 mem
    rw [calls]
    exact ⟨finding.answer, List.mem_map_of_mem there⟩
  · rw [← alive?_uninterrupted, calls, Finding.filterMap_alive?, pending, List.nil_append]

/-- A round with a report comes before the others. -/
theorem Drains.after {early late : Shell.Trace} {pid : Pid} {code : Int} {middle : σ}
    (polled : Runs step registry.pollOnce state early (.terminated pid code, rest) middle)
    (drains : Drains rest late collected left) :
    Drains registry (early ++ late) (⟨pid, code⟩ :: collected) left := by
  obtain ⟨findings, calls, round⟩ := reviewed_of_pollFrom registry [] polled
  have fewer : rest.Sublist registry := round.sublist
  refine ⟨fun job mem => ?_, ?_, drains.order.trans fewer, ?_⟩
  · rw [uninterrupted_append, calls]
    rcases round.polled_or_left mem with ⟨finding, there, rfl⟩ | behind
    · exact ⟨finding.answer, List.mem_append_left _ (List.mem_map_of_mem there)⟩
    · obtain ⟨answer, there⟩ := drains.polled job behind
      exact ⟨answer, List.mem_append_right _ there⟩
  · have reported : pid ∈ registry.map Job.pid := round.reported_registered rfl
    have others : ∀ child ∈ collected, child.pid ∈ registry.map Job.pid :=
      fun child mem => (fewer.map Job.pid).subset (drains.registered child mem)
    exact List.forall_mem_cons.2 ⟨reported, others⟩
  · obtain ⟨front, back, rfl, silent, running⟩ := drains.seen
    exact ⟨early ++ front, back, (List.append_assoc ..).symm, silent, running⟩

theorem drains (run : Runs step registry.drain state trace (collected, left) final) :
    Drains registry trace collected left :=
  drain_induction (motive := fun registry _ trace collected left _ =>
    Drains registry trace collected left) drains_of_silent (fun polled later => later.after polled) run

end

end Registry

/-! ## The children meanwhile -/

namespace Family

variable {family before middle after final : Family} {pid other : Pid} {fate : Fate} {taker : Taker}
variable {answer : Except Errno WaitStatus} {trace : Shell.Trace} {child : Collected}

/-- No child was started in between, and what was known of the children is still known. -/
structure Follows (before after : Family) : Prop where
  births : after.births = before.births
  uncollected : after.uncollected.Sublist before.uncollected
  takes : ∀ pid taker, before.takes pid taker ≤ after.takes pid taker
  ages : before.Ages after

theorem Follows.refl (family : Family) : Follows family family :=
  ⟨rfl, .refl _, fun _ _ => le_rfl, .refl family⟩

theorem Follows.trans (early : Follows before middle) (late : Follows middle after) :
    Follows before after where
  births := late.births.trans early.births
  uncollected := late.uncollected.trans early.uncollected
  takes := fun pid taker => (early.takes pid taker).trans (late.takes pid taker)
  ages := early.ages.trans late.ages

theorem follows_take (family : Family) (pid : Pid) (taker : Taker) :
    Follows family (family.take pid taker) where
  births := births_take family pid taker
  uncollected := by
    rw [uncollected_take]
    exact List.filter_sublist
  takes := fun other who => takes_le_take family pid other taker who
  ages := ages_take family pid taker

theorem Follows.meddles (meddles : family.Meddles after) : Follows family after := by
  refine ⟨?_, meddles.uncollected, ?_, .meddles meddles⟩
  · cases meddles with
    | ends ended =>
        cases ended with
        | ends fate _ => rw [births_finish]
    | steals _ => rw [births_take]
  · intro pid taker
    cases meddles with
    | ends ended =>
        cases ended with
        | ends fate _ => rw [takes_finish]
    | steals _ => exact takes_le_take _ _ _ _ _

theorem Follows.looks (looks : Looks pid family answer after) : Follows family after := by
  cases looks with
  | ended _ => exact follows_take _ _ _
  | running _ _ => exact .refl family
  | interrupted _ => exact .refl family
  | nothing _ => exact .refl family

theorem Follows.drift (drifts : Relation.ReflTransGen Meddles before after) :
    Follows before after :=
  drift_keeps (fun _ _ moved early => early.trans (.meddles moved)) drifts (.refl before)

theorem Follows.nodup (follows : Follows before after) (distinct : before.uncollected.Nodup) :
    after.uncollected.Nodup :=
  distinct.sublist follows.uncollected

theorem Follows.polled (answered : Answers Meddles (.poll pid) before answer after) :
    Follows before after := by
  obtain ⟨middle, drifted, looks⟩ := answered
  exact (Follows.drift drifted).trans (.looks looks)

/-- Only polls were answered. -/
theorem Follows.answered (answered : Answered (Answers Meddles) family trace final)
    (polls : ∀ event ∈ trace, event.call.IsPoll) : Follows family final := by
  induction answered with
  | nil family => exact .refl family
  | @cons call answer _ _ _ _ here _ ih =>
      obtain ⟨head, tail⟩ := List.forall_mem_cons.1 polls
      cases call with
      | poll pid => exact (Follows.polled here).trans (ih tail)
      | _ => exact absurd head not_false

/-! ### A child that has ended is reported once -/

theorem Ended.finish (ended : family.Ended pid fate) (apart : pid ≠ other) (later : Fate) :
    (family.finish other later).Ended pid fate := by
  obtain ⟨one, mem, rfl, free, fated⟩ := ended
  have there : one ∈ family.finish other later :=
    List.mem_map.2 ⟨one, mem, if_neg fun marked => apart marked.1⟩
  exact ⟨one, there, rfl, free, fated⟩

/-- A child that has ended is there until its status is taken. -/
theorem Ended.meddles (ended : family.Ended pid fate) (distinct : family.uncollected.Nodup)
    (meddles : family.Meddles after)
    (unstolen : after.takes pid .stranger ≤ family.takes pid .stranger) : after.Ended pid fate := by
  cases meddles with
  | ends ending =>
      cases ending with
      | @ends other later running =>
          have apart : pid ≠ other := by
            rintro rfl
            exact ended.not_running distinct running
          exact ended.finish apart later
  | @steals other _ _ =>
      have apart : pid ≠ other := by
        rintro rfl
        have there : 0 < family.uncollected.count pid := List.count_pos_iff.2 ended.mem_uncollected
        rw [takes_take, if_pos ⟨rfl, rfl⟩] at unstolen
        omega
      exact ended.take apart .stranger

/-- A poll of another child leaves it there. -/
theorem Ended.looks (ended : family.Ended pid fate) (looks : Looks other family answer after)
    (apart : pid ≠ other) : after.Ended pid fate := by
  cases looks with
  | ended _ => exact ended.take apart .shell
  | running _ _ => exact ended
  | interrupted _ => exact ended
  | nothing _ => exact ended

/-- A poll of the child is told how it has ended. -/
theorem Ended.reported (ended : family.Ended pid fate) (looks : Looks pid family answer after)
    (distinct : family.uncollected.Nodup) (usable : Registry.interrupted answer = false) :
    answer = fate.reported := by
  cases looks with
  | ended also => rw [ended.unique also distinct]
  | running running _ => exact absurd running (ended.not_running distinct)
  | interrupted _ => cases usable
  | nothing absent => exact absurd ended.mem_uncollected absent

theorem Ended.drift (ended : family.Ended pid fate) (distinct : family.uncollected.Nodup)
    (drifts : Relation.ReflTransGen Meddles family after)
    (unstolen : after.takes pid .stranger ≤ family.takes pid .stranger) : after.Ended pid fate := by
  induction drifts with
  | refl => exact ended
  | tail early last ih =>
      have before := (Follows.drift early).takes pid .stranger
      have here := (Follows.meddles last).takes pid .stranger
      have still := ih (here.trans unstolen)
      exact still.meddles ((Follows.drift early).nodup distinct) last (unstolen.trans before)

/-- The uncollected child with the pid had its status taken by the shell, and ended with the code. -/
def Delivers (before after : Family) (child : Collected) : Prop :=
  ∃ (place : Nat) (one later : Offspring) (fate : Fate),
    before[place]? = some one ∧ one.pid = child.pid ∧ one.takers = [] ∧
    after[place]? = some later ∧ [.shell] <+: later.takers ∧
    later.ending = some fate ∧ fate.told = some child.code

theorem Delivers.mem_uncollected (delivers : Delivers before after child) :
    child.pid ∈ before.uncollected := by
  obtain ⟨place, one, _, _, found, rightPid, free, _⟩ := delivers
  exact Family.mem_uncollected.2 ⟨one, List.mem_of_getElem? found, rightPid, free⟩

/-- It was the same child earlier on. -/
theorem Delivers.earlier (delivers : Delivers middle after child) (follows : Follows before middle) :
    Delivers before after child := by
  obtain ⟨place, one, later, fate, found, rightPid, free, rest⟩ := delivers
  have inside : place < before.length := by
    have lengths : middle.length = before.length := by
      simpa [Family.births] using congrArg List.length follows.births
    obtain ⟨inside, _⟩ := List.getElem?_eq_some_iff.1 found
    omega
  obtain ⟨old, foundOld, freeOld, samePid, _⟩ := follows.ages.uncollected inside found free
  exact ⟨place, old, later, fate, foundOld, samePid.symm.trans rightPid, freeOld, rest⟩

theorem Delivers.later (delivers : Delivers before middle child) (follows : Follows middle after) :
    Delivers before after child := by
  obtain ⟨place, one, met, fate, found, rightPid, free, foundMet, taken, ended, told⟩ := delivers
  obtain ⟨now, foundNow, aged⟩ := follows.ages place met foundMet
  exact ⟨place, one, now, fate, found, rightPid, free, foundNow, taken.trans aged.takers,
    aged.ending fate ended, told⟩

/-- A poll that reports a child takes its status. -/
theorem Looks.delivers (looks : Looks pid family answer after)
    (reported : child ∈ Collected.ofAnswer pid answer) :
    Delivers family after child ∧ child.pid ∉ after.uncollected := by
  cases looks with
  | @ended fate ended =>
      obtain ⟨one, mem, rfl, free, fated⟩ := ended
      obtain ⟨code, known, rfl⟩ := List.mem_map.1 reported
      obtain ⟨place, found⟩ := List.mem_iff_getElem?.1 mem
      refine ⟨⟨place, one, { one with takers := [.shell] }, fate, found, rfl, free, ?_,
        List.prefix_rfl, fated, Option.mem_toList.1 known⟩, ?_⟩
      · simp [Family.take, mark, found, free]
      · rw [uncollected_take]
        simp
  | running running unfinished =>
      simp [Collected.ofAnswer, Except.toOption, unfinished] at reported
  | interrupted _ => cases reported
  | nothing _ => cases reported

theorem delivers_of_answered (answered : Answered (Answers Meddles) family trace final)
    (polls : ∀ event ∈ trace, event.call.IsPoll) :
    (∀ child ∈ trace.flatMap Collected.ofEvent, Delivers family final child) ∧
      ((trace.flatMap Collected.ofEvent).map Collected.pid).Nodup := by
  induction answered with
  | nil family => exact ⟨by simp, List.nodup_nil⟩
  | @cons call answer before after _ rest here later ih =>
      obtain ⟨head, tail⟩ := List.forall_mem_cons.1 polls
      cases call with
      | poll pid =>
          obtain ⟨middle, drifted, looks⟩ := here
          obtain ⟨others, nodup⟩ := ih tail
          have early : Follows before middle := .drift drifted
          have follows : Follows before after := early.trans (.looks looks)
          have late : Follows after _ := .answered later tail
          have told : (⟨.poll pid, answer⟩ :: rest).flatMap Collected.ofEvent =
            Collected.ofAnswer pid answer ++ rest.flatMap Collected.ofEvent := rfl
          rw [told]
          constructor
          · intro child mem
            rcases List.mem_append.1 mem with first | behind
            · exact ((looks.delivers first).1.earlier early).later late
            · exact (others child behind).earlier follows
          · rw [List.map_append, List.nodup_append]
            refine ⟨?_, nodup, ?_⟩
            · unfold Collected.ofAnswer
              cases answer.toOption.bind WaitStatus.code <;> simp
            · -- The status is taken, so the child is not uncollected when the others are reported.
              intro first memFirst second memSecond same
              obtain ⟨child, reported, rfl⟩ := List.mem_map.1 memFirst
              obtain ⟨other, behind, rfl⟩ := List.mem_map.1 memSecond
              have gone := (looks.delivers reported).2
              have known := (others other behind).mem_uncollected
              exact gone (same ▸ known)
      | _ => exact absurd head not_false

/-- One poll tells how a child has ended, or leaves it there. -/
theorem Ended.polled (ended : family.Ended pid fate) (distinct : family.uncollected.Nodup)
    (answered : Answers Meddles (.poll other) family answer after)
    (unstolen : after.takes pid .stranger ≤ family.takes pid .stranger) :
    (other = pid ∧ answer = fate.reported) ∨
      (other = pid → Registry.interrupted answer = true) ∧ after.Ended pid fate := by
  obtain ⟨middle, drifted, looks⟩ := answered
  have early : Follows family middle := .drift drifted
  have late : Follows middle after := .looks looks
  have nodup : middle.uncollected.Nodup := early.nodup distinct
  have still : middle.Ended pid fate :=
    ended.drift distinct drifted ((late.takes pid .stranger).trans unstolen)
  by_cases apart : pid = other
  · subst apart
    cases again : Registry.interrupted answer with
    | false => exact .inl ⟨rfl, still.reported looks nodup again⟩
    | true =>
        have same : after = middle := looks.of_interrupted again
        exact .inr ⟨fun _ => rfl, same ▸ still⟩
  · exact .inr ⟨fun same => absurd same.symm apart, still.looks looks apart⟩

/-- A child that has ended is reported when it is polled, unless somebody else took its status. -/
theorem reported_of_polled (answered : Answered (Answers Meddles) family trace final)
    (polls : ∀ event ∈ trace, event.call.IsPoll) (distinct : family.uncollected.Nodup)
    (ended : family.Ended pid fate)
    (unstolen : final.takes pid .stranger ≤ family.takes pid .stranger)
    (polled : ∃ answer, ⟨.poll pid, answer⟩ ∈ uninterrupted trace) {code : Int}
    (told : fate.told = some code) : ⟨pid, code⟩ ∈ trace.flatMap Collected.ofEvent := by
  induction answered with
  | nil family =>
      obtain ⟨answer, mem⟩ := polled
      cases mem
  | @cons call answer before after final rest here later ih =>
      obtain ⟨head, tail⟩ := List.forall_mem_cons.1 polls
      cases call with
      | poll other =>
          have early : Follows before after := .polled here
          have late : Follows after final := .answered later tail
          have unstolenHere := (late.takes pid .stranger).trans unstolen
          have unstolenLater := unstolen.trans (early.takes pid .stranger)
          rcases ended.polled distinct here unstolenHere with ⟨rfl, rfl⟩ | ⟨again, still⟩
          · have reported : ⟨other, code⟩ ∈ Collected.ofAnswer other fate.reported :=
              List.mem_map.2 ⟨code, Option.mem_toList.2 told, rfl⟩
            exact List.mem_append_left _ reported
          · -- If this poll was for the child it was interrupted, so the child is polled later.
            have behind : ∃ answer, ⟨.poll pid, answer⟩ ∈ uninterrupted rest := by
              obtain ⟨found, mem⟩ := polled
              obtain ⟨there, usable⟩ := List.mem_filter.1 mem
              rcases List.mem_cons.1 there with same | there
              · cases same
                simp [wasInterrupted, again rfl] at usable
              · exact ⟨found, List.mem_filter.2 ⟨there, usable⟩⟩
            exact List.mem_append_right _
              (ih tail (early.nodup distinct) still unstolenLater behind)
      | _ => exact absurd head not_false

end Family

/-! ## What a drain does not miss -/

namespace Registry

/-- How the registry and the children are after a drain, whatever has happened meanwhile. -/
structure Raced (registry : Registry) (family : Family) (trace : Shell.Trace)
    (collected : List Collected) (left : Registry) (final : Family) : Prop where
  /-- A job that was gone when the drain began is not left. -/
  gone : ∀ job ∈ registry, (∃ fate, family.Ended job.pid fate) ∨ job.pid ∉ family.uncollected →
    job ∉ left
  /-- Its code is reported once, if there is one and nobody else has taken the status. -/
  told : ∀ job ∈ registry, ∀ fate code, family.Ended job.pid fate → fate.told = some code →
    final.takes job.pid .stranger = family.takes job.pid .stranger →
      (collected.filter fun child => child.pid = job.pid) = [⟨job.pid, code⟩]
  /-- The polls after the last report found exactly the jobs running that are left. -/
  seen : ∃ early late, trace = early ++ late ∧ late.flatMap Collected.ofEvent = [] ∧
    late.filterMap alive? = left.map Job.pid
  /-- What is reported is registered, and is the code of that child. -/
  own : ∀ child ∈ collected, child.pid ∈ registry.map Job.pid ∧ family.Delivers final child
  once : (collected.map Collected.pid).Nodup
  order : left.Sublist registry

/-- In a list with distinct pids there is one entry with the pid of a member. -/
theorem filter_pid {collected : List Collected} {child : Collected} (mem : child ∈ collected)
    (nodup : (collected.map Collected.pid).Nodup) :
    (collected.filter fun other => other.pid = child.pid) = [child] := by
  induction collected with
  | nil => cases mem
  | cons first rest ih =>
      obtain ⟨fresh, others⟩ := List.nodup_cons.1 nodup
      rcases List.mem_cons.1 mem with rfl | behind
      · have none : (rest.filter fun other => other.pid = child.pid) = [] := by
          refine List.filter_eq_nil_iff.2 fun other there same => fresh ?_
          exact List.mem_map.2 ⟨other, there, by simpa using same⟩
        simp [none]
      · have apart : first.pid ≠ child.pid := by
          intro same
          exact fresh (List.mem_map.2 ⟨child, behind, same.symm⟩)
        simp [apart, ih behind others]

/-- A drain misses nothing that had ended when it began, and reports nothing else than what was
registered, while children end and others take statuses. -/
theorem drain_races (registry : Registry) {family final : Family} {trace : Shell.Trace}
    {collected : List Collected} {left : Registry} (distinct : family.uncollected.Nodup)
    (run : Runs (Family.Answers Family.Meddles) registry.drain family trace (collected, left) final) :
    Raced registry family trace collected left final := by
  have polls : ∀ event ∈ trace, event.call.IsPoll := (drain_asks registry).runs run
  have answered := run.answers
  have drains := drains run
  obtain ⟨rfl, unfinished⟩ := drained registry run
  obtain ⟨delivers, nodup⟩ := Family.delivers_of_answered answered polls
  have telling : Telling (Family.Answers Family.Meddles) fun pid family => ¬ family.Running pid :=
    Family.telling fun _ _ meddles => meddles
  have running : ∀ job ∈ left, family.Running job.pid := fun job mem =>
    not_not.1 (not_gone_of_unfinished telling run (unfinished job mem))
  refine ⟨fun job _ gone mem => ?_, ?_, drains.seen, fun child mem =>
    ⟨drains.registered child mem, delivers child mem⟩, nodup, drains.order⟩
  · rcases gone with ⟨fate, ended⟩ | absent
    · exact ended.not_running distinct (running job mem)
    · exact absent (running job mem).mem_uncollected
  · intro job mem fate code ended told unstolen
    have reported := Family.reported_of_polled answered polls distinct ended unstolen.le
      (drains.polled job mem) told
    exact filter_pid reported nodup

end Registry

/-- Two children that are running, and one in between that left with code 5. -/
def Family.surrounded : Family :=
  let child : Child := ⟨⟨"a", none, [], ⟨NulFree.clip [], []⟩, none, none⟩, none⟩
  [⟨1, child, none, []⟩, ⟨2, child, some (.exited 5), []⟩, ⟨3, child, none, []⟩]

/-- The first child ends when the second one is polled. -/
def Family.overtaking (call : Request) (family : Family) : Option (call.Answer × Family) :=
  some (serve call (if call = .poll 2 then family.settle (.poll 1) else family))

theorem Family.overtaking_answers (call : Request) (family : Family) (answer : call.Answer)
    (after : Family) (answered : overtaking call family = some (answer, after)) :
    Answers Meddles call family answer after := by
  have drifts : Relation.ReflTransGen Meddles family
      (if call = .poll 2 then family.settle (.poll 1) else family) := by
    split
    · exact Relation.ReflTransGen.mono (fun _ _ ends => Meddles.ends ends) _ _ (settle_ends (.poll 1) family)
    · exact .refl
  have served := Option.some.inj answered
  have serves := serves_serve call (if call = .poll 2 then family.settle (.poll 1) else family)
  rw [served] at serves
  exact ⟨_, drifts, serves⟩

/-- A job that has been polled ends during the scan, and is found by the next one. -/
theorem Registry.drain_races_overtaken :
    let registry : Registry := [⟨1, true⟩, ⟨2, true⟩, ⟨3, true⟩]
    Family.surrounded.uncollected.Nodup ∧ ∃ trace final,
      Runs (Family.Answers Family.Meddles) registry.drain Family.surrounded trace
        ([⟨2, 5⟩, ⟨1, 0⟩], [⟨3, true⟩]) final ∧
      Raced registry Family.surrounded trace [⟨2, 5⟩, ⟨1, 0⟩] [⟨3, true⟩] final := by
  intro registry
  have distinct : Family.surrounded.uncollected.Nodup := by decide
  have ran : (registry.drain.runWith Family.overtaking 1 Family.surrounded).map Prod.fst =
      some ([⟨2, 5⟩, ⟨1, 0⟩], [⟨3, true⟩]) := by decide +kernel
  obtain ⟨⟨value, final⟩, ran, rfl⟩ := Option.map_eq_some_iff.1 ran
  obtain ⟨trace, run⟩ := runs_of_runWith Family.overtaking_answers ran
  exact ⟨distinct, trace, final, run, drain_races registry distinct run⟩

end LineShell
