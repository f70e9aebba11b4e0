/-
# LineShell.Proofs.Siblings -- the two children of a pipe

Children of different pids do not get in each other's way: what happens to a family of
older and younger children happens to the older ones or to the younger ones
(`Family.splits_of_ends`).  So a pipe, whatever its answers are, leaves the older children
to end when they end, and adds two more at the end of the family, each of them ended and
collected by the shell (`Family.siblings_of_paired`).  What the pipe comes to is how the
right one ended, as far as that can be told.
-/
import LineShell.Proofs.Refusing

namespace LineShell

set_option autoImplicit false

open Program

/-- What the shell hears of an ended child that it waits for. -/
def Fate.heard (fate : Fate) : Except Errno Int :=
  match fate.told with
  | some code => .ok code
  | none => .error .EINVAL

theorem Fate.verdict_reported (fate : Fate) : Job.verdict fate.reported = some fate.heard := by
  rcases fate.reported_cases with ⟨code, reported, final⟩ | untold
  · simp [heard, told, reported, final, Job.verdict, Except.toOption]
  · simp [heard, told, untold, Job.verdict, Except.toOption]

/-- The same child at a later time; nobody has taken its status in between. -/
structure Offspring.Matures (one later : Offspring) : Prop where
  same : later = { one with ending := later.ending }
  ending : ∀ fate, one.ending = some fate → later.ending = some fate

theorem Offspring.Matures.exists_ending {pid : Pid} {child : Child} {ending : Option Fate}
    {takers : List Taker} {later : Offspring} (matures : Matures ⟨pid, child, ending, takers⟩ later) :
    ∃ known, later = ⟨pid, child, known, takers⟩ ∧ ∀ fate, ending = some fate → known = some fate :=
  ⟨later.ending, matures.same, matures.ending⟩

namespace Family

variable {family before after older younger aged : Family} {pid : Pid} {fate : Fate}

/-! ## Older children and younger ones -/

/-- A change to a child that is not there. -/
theorem mark_of_unknown (unknown : pid ∉ family.uncollected) (change : Offspring → Offspring) :
    family.mark pid change = family := by
  refine (List.map_congr_left fun one mem => if_neg ?_).trans (List.map_id family)
  exact fun ⟨same, free⟩ => unknown (mem_uncollected.2 ⟨one, mem, same, free⟩)

theorem mark_append (older younger : Family) (pid : Pid) (change : Offspring → Offspring) :
    mark (older ++ younger) pid change = older.mark pid change ++ younger.mark pid change :=
  List.map_append

theorem uncollected_append (older younger : Family) :
    uncollected (older ++ younger) = older.uncollected ++ younger.uncollected := by
  simp [uncollected]

/-- No younger child is taken for an older one. -/
def Unlike (older younger : Family) : Prop :=
  ∀ pid ∈ younger.uncollected, pid ∉ older.uncollected

theorem uncollected_of_ends (ends : Relation.ReflTransGen Ends before after) :
    after.uncollected = before.uncollected := by
  induction ends with
  | refl => rfl
  | tail _ last ih =>
      cases last with
      | ends fate _ => rw [uncollected_finish, ih]

theorem splits_of_end (unlike : Unlike older younger) (ends : Ends (older ++ younger) after) :
    ∃ aged grown, after = aged ++ grown ∧ Relation.ReflTransGen Ends older aged ∧
      Relation.ReflTransGen Ends younger grown := by
  cases ends with
  | @ends pid fate running =>
      obtain ⟨one, mem, rightPid, free, unended⟩ := running
      rw [finish, mark_append]
      rcases List.mem_append.1 mem with old | young
      · have running : older.Running pid := ⟨one, old, rightPid, free, unended⟩
        have unknown : pid ∉ younger.uncollected :=
          fun known => unlike pid known running.mem_uncollected
        rw [mark_of_unknown unknown]
        exact ⟨_, _, rfl, .single (.ends fate running), .refl⟩
      · have running : younger.Running pid := ⟨one, young, rightPid, free, unended⟩
        rw [mark_of_unknown (unlike pid running.mem_uncollected)]
        exact ⟨_, _, rfl, .refl, .single (.ends fate running)⟩

/-- Older and younger children end apart from each other. -/
theorem splits_of_ends (unlike : Unlike older younger)
    (ends : Relation.ReflTransGen Ends (older ++ younger) after) :
    ∃ aged grown, after = aged ++ grown ∧ Relation.ReflTransGen Ends older aged ∧
      Relation.ReflTransGen Ends younger grown := by
  induction ends with
  | refl => exact ⟨older, younger, rfl, .refl, .refl⟩
  | tail _ last ih =>
      obtain ⟨aged, grown, rfl, oldEnds, youngEnds⟩ := ih
      have unlike : Unlike aged grown := by
        rwa [Unlike, uncollected_of_ends oldEnds, uncollected_of_ends youngEnds]
      obtain ⟨aged, grown, rfl, oldEnd, youngEnd⟩ := splits_of_end unlike last
      exact ⟨aged, grown, rfl, oldEnds.trans oldEnd, youngEnds.trans youngEnd⟩

theorem matures_of_ends (ends : Relation.ReflTransGen Ends before after) :
    List.Forall₂ Offspring.Matures before after := by
  induction ends with
  | refl => exact List.forall₂_same.2 fun one _ => ⟨rfl, fun _ known => known⟩
  | tail _ last ih =>
      cases last with
      | ends fate _ =>
          refine List.forall₂_map_right_iff.2 (ih.imp fun one later matures => ?_)
          split
          · refine ⟨by rw [matures.same], fun known ended => ?_⟩
            simp [matures.ending known ended]
          · exact matures

/-! ## Waiting for one child -/

theorem Looks.unsettled {answer : Except Errno WaitStatus} (looks : Looks pid family answer after)
    (unsettled : Job.verdict answer = none) : after = family := by
  cases looks with
  | @ended fate _ => cases fate.verdict_reported.symm.trans unsettled
  | running _ _ => rfl
  | interrupted _ => rfl
  | nothing _ => rfl

theorem Looks.settled {answer : Except Errno WaitStatus} {result : Except Errno Int}
    (looks : Looks pid family answer after) (settled : Job.verdict answer = some result)
    (known : pid ∈ family.uncollected) :
    ∃ fate, family.Ended pid fate ∧ after = family.take pid .shell ∧ result = fate.heard := by
  cases looks with
  | @ended fate ended =>
      exact ⟨fate, ended, rfl, Option.some.inj (settled.symm.trans fate.verdict_reported)⟩
  | running _ unfinished => simp [Job.verdict, unfinished] at settled
  | interrupted _ => cases settled
  | nothing unknown => exact absurd known unknown

/-- A child that is waited for ends at some time, and then its status is taken. -/
theorem ended_of_awaits {waits : Shell.Trace} {result : Except Errno Int}
    (awaits : Job.Awaits pid waits result) (answered : Answered (Answers Ends) before waits after)
    (known : pid ∈ before.uncollected) :
    ∃ middle fate, Relation.ReflTransGen Ends before middle ∧ middle.Ended pid fate ∧
      after = middle.take pid .shell ∧ result = fate.heard := by
  induction awaits generalizing before with
  | again unsettled _ ih =>
      cases answered with
      | cons here later =>
          obtain ⟨middle, drifted, looks⟩ := here
          obtain rfl := Looks.unsettled looks unsettled
          obtain ⟨last, fate, ends, rest⟩ := ih later (by rwa [uncollected_of_ends drifted])
          exact ⟨last, fate, drifted.trans ends, rest⟩
  | settled settled =>
      cases answered with
      | cons here later =>
          cases later
          obtain ⟨middle, drifted, looks⟩ := here
          obtain ⟨fate, ended, rfl, heard⟩ :=
            Looks.settled looks settled (by rwa [uncollected_of_ends drifted])
          exact ⟨middle, fate, drifted, ended, rfl, heard⟩

/-! ## Two children -/

/-- A younger child that is collected has ended, and the older ones are not touched. -/
theorem collects_younger (unlike : Unlike older younger) (known : pid ∈ younger.uncollected)
    (ends : Relation.ReflTransGen Ends (older ++ younger) after) (ended : after.Ended pid fate) :
    ∃ aged grown, Relation.ReflTransGen Ends older aged ∧
      List.Forall₂ Offspring.Matures younger grown ∧ Ended grown pid fate ∧
      after.take pid .shell = aged ++ take grown pid .shell := by
  obtain ⟨aged, grown, rfl, oldEnds, youngEnds⟩ := splits_of_ends unlike ends
  have unknown : pid ∉ aged.uncollected := by
    rw [uncollected_of_ends oldEnds]
    exact unlike pid known
  refine ⟨aged, grown, oldEnds, matures_of_ends youngEnds, ?_, ?_⟩
  · obtain ⟨one, mem, rightPid, free, fated⟩ := ended
    rcases List.mem_append.1 mem with old | young
    · exact absurd (mem_uncollected.2 ⟨one, old, rightPid, free⟩) unknown
    · exact ⟨one, young, rightPid, free, fated⟩
  · rw [take, mark_append, mark_of_unknown unknown, take]

section Pairs

variable {child sibling : Child} {other : Pid} {ending : Option Fate}

/-- The first of two younger children is collected. -/
theorem collects_first (fresh : pid ∉ older.uncollected) (alsoFresh : other ∉ older.uncollected)
    (apart : other ≠ pid)
    (drifted : Relation.ReflTransGen Ends
      (older ++ [⟨pid, child, ending, []⟩, ⟨other, sibling, none, []⟩]) after)
    (ended : after.Ended pid fate) :
    ∃ aged ending, Relation.ReflTransGen Ends older aged ∧
      after.take pid .shell =
        aged ++ [⟨pid, child, some fate, [.shell]⟩, ⟨other, sibling, ending, []⟩] := by
  have both : uncollected [⟨pid, child, ending, []⟩, ⟨other, sibling, none, []⟩] = [pid, other] := rfl
  have unlike : Unlike older [⟨pid, child, ending, []⟩, ⟨other, sibling, none, []⟩] := by
    simp [Unlike, both, fresh, alsoFresh]
  obtain ⟨aged, grown, oldEnds, matures, ended, taken⟩ :=
    collects_younger unlike (by simp [both]) drifted ended
  rcases matures with _ | ⟨first, _ | ⟨second, _ | _⟩⟩
  obtain ⟨_, rfl, _⟩ := first.exists_ending
  obtain ⟨ending, rfl, _⟩ := second.exists_ending
  obtain ⟨one, mem, rightPid, _, fated⟩ := ended
  rcases List.mem_pair.1 mem with rfl | rfl
  · obtain rfl : _ = some fate := fated
    refine ⟨aged, ending, oldEnds, ?_⟩
    rw [taken]
    simp [take, mark, apart]
  · exact absurd rightPid apart

/-- The second of two younger children is collected after the first. -/
theorem collects_second {known : Fate} (alsoFresh : other ∉ older.uncollected)
    (drifted : Relation.ReflTransGen Ends
      (older ++ [⟨pid, child, some known, [.shell]⟩, ⟨other, sibling, ending, []⟩]) after)
    (ended : after.Ended other fate) :
    ∃ aged, Relation.ReflTransGen Ends older aged ∧
      after.take other .shell =
        aged ++ [⟨pid, child, some known, [.shell]⟩, ⟨other, sibling, some fate, [.shell]⟩] := by
  have left :
      uncollected [⟨pid, child, some known, [.shell]⟩, ⟨other, sibling, ending, []⟩] = [other] := rfl
  have unlike : Unlike older [⟨pid, child, some known, [.shell]⟩, ⟨other, sibling, ending, []⟩] := by
    simp [Unlike, left, alsoFresh]
  obtain ⟨aged, grown, oldEnds, matures, ended, taken⟩ :=
    collects_younger unlike (by simp [left]) drifted ended
  rcases matures with _ | ⟨first, _ | ⟨second, _ | _⟩⟩
  obtain ⟨_, rfl, kept⟩ := first.exists_ending
  obtain rfl := kept known rfl
  obtain ⟨_, rfl, _⟩ := second.exists_ending
  obtain ⟨one, mem, rightPid, free, fated⟩ := ended
  rcases List.mem_pair.1 mem with rfl | rfl
  · cases free
  · obtain rfl : _ = some fate := fated
    refine ⟨aged, oldEnds, ?_⟩
    rw [taken]
    simp [take, mark]

/-- The first of two children is still uncollected when the second is started. -/
theorem bears_second (fresh : pid ∉ family.uncollected)
    (drifted : Relation.ReflTransGen Ends (family.bear pid child) after)
    (alsoFresh : other ∉ after.uncollected) :
    other ≠ pid ∧ ∃ aged ending, Relation.ReflTransGen Ends family aged ∧
      pid ∉ aged.uncollected ∧ other ∉ aged.uncollected ∧
      after.bear other sibling = aged ++ [⟨pid, child, ending, []⟩, ⟨other, sibling, none, []⟩] := by
  have alone : uncollected [⟨pid, child, none, []⟩] = [pid] := rfl
  have unlike : Unlike family [⟨pid, child, none, []⟩] := by simp [Unlike, alone, fresh]
  obtain ⟨aged, grown, rfl, oldEnds, youngEnds⟩ := splits_of_ends unlike drifted
  rw [uncollected_append, uncollected_of_ends oldEnds, uncollected_of_ends youngEnds, alone,
    List.mem_append, List.mem_singleton, not_or] at alsoFresh
  rcases matures_of_ends youngEnds with _ | ⟨first, _ | _⟩
  obtain ⟨ending, rfl, _⟩ := first.exists_ending
  rw [← uncollected_of_ends oldEnds] at fresh alsoFresh
  exact ⟨alsoFresh.2, aged, ending, oldEnds, fresh, alsoFresh.1, by simp [bear]⟩

end Pairs

/-- Two children have been started, have ended and were collected by the shell; to the older ones
nothing has happened but that some of them may have ended. -/
def Siblings (before : Family) (first second : Image) (leftFate rightFate : Fate) (after : Family) :
    Prop :=
  ∃ (ends : Request.Ends) (pid other : Pid) (aged : Family),
    Relation.ReflTransGen Ends before aged ∧
      after = aged ++ [⟨pid, Launch.leftChild first ends, some leftFate, [.shell]⟩,
        ⟨other, Launch.rightChild second ends, some rightFate, [.shell]⟩]

variable {first second : Image} {trace : Shell.Trace}

/-- Whatever happens between the calls, both children of a pipe are collected by the shell, the older
children are left alone, and only the right child counts. -/
theorem siblings_of_paired {result : Except LaunchError Int}
    (paired : Launch.Paired first second trace result)
    (answered : Answered (Answers Ends) before trace after) :
    ∃ leftFate rightFate, before.Siblings first second leftFate rightFate after ∧
      result = rightFate.heard.mapError .system := by
  cases paired with
  | unpiped errno =>
      obtain _ | ⟨⟨_, _, ⟨_, same⟩, _⟩, _⟩ := answered
      cases same
  | unstarted errno =>
      obtain _ | ⟨_, _ | ⟨⟨_, _, _, _, same, _⟩, _⟩⟩ := answered
      cases same
  | alone errno _ =>
      obtain _ | ⟨_, _ | ⟨_, _ | ⟨⟨_, _, _, _, same, _⟩, _⟩⟩⟩ := answered
      cases same
  | @both ends pid other early late firstResult secondResult awaitsFirst awaitsSecond =>
      obtain _ | ⟨⟨start, toStart, _, rfl⟩, answered⟩ := answered
      obtain _ | ⟨⟨alone, toAlone, _, fresh, same, rfl⟩, answered⟩ := answered
      obtain rfl := Except.ok.inj same
      obtain _ | ⟨⟨withLeft, toWithLeft, _, alsoFresh, same, rfl⟩, answered⟩ := answered
      obtain rfl := Except.ok.inj same
      obtain _ | ⟨⟨_, untilRead, rfl⟩, answered⟩ := answered
      obtain _ | ⟨⟨_, untilWrite, rfl⟩, answered⟩ := answered
      obtain ⟨_, waited, alsoWaited⟩ := answered_append.1 answered
      obtain ⟨apart, aged, ending, toAged, fresh, alsoFresh, born⟩ :=
        bears_second fresh toWithLeft alsoFresh
      rw [born] at untilRead
      have closed := untilRead.trans untilWrite
      have known : pid ∈ uncollected (aged ++ [⟨pid, Launch.leftChild first ends, ending, []⟩,
          ⟨other, Launch.rightChild second ends, none, []⟩]) :=
        mem_uncollected.2 ⟨⟨pid, Launch.leftChild first ends, ending, []⟩, by simp, rfl, rfl⟩
      rw [← uncollected_of_ends closed] at known
      obtain ⟨_, leftFate, untilLeft, leftEnded, rfl, _⟩ := ended_of_awaits awaitsFirst waited known
      obtain ⟨older, ending, toOlder, collected⟩ :=
        collects_first fresh alsoFresh apart (closed.trans untilLeft) leftEnded
      rw [collected] at alsoWaited
      have known : other ∈ uncollected (older ++
          [⟨pid, Launch.leftChild first ends, some leftFate, [.shell]⟩,
            ⟨other, Launch.rightChild second ends, ending, []⟩]) :=
        mem_uncollected.2 ⟨⟨other, Launch.rightChild second ends, ending, []⟩, by simp, rfl, rfl⟩
      obtain ⟨_, rightFate, untilRight, rightEnded, rfl, heard⟩ :=
        ended_of_awaits awaitsSecond alsoWaited known
      rw [← uncollected_of_ends toOlder] at alsoFresh
      obtain ⟨last, toLast, collected⟩ := collects_second alsoFresh untilRight rightEnded
      have aged := toStart.trans (toAlone.trans (toAged.trans (toOlder.trans toLast)))
      exact ⟨leftFate, rightFate, ⟨ends, pid, other, last, aged, collected⟩,
        congrArg (Except.mapError LaunchError.system) heard⟩

/-! ## Two given endings -/

/-- A running child may end in any way, and a wait is then told of it. -/
theorem answers_wait (running : family.Running pid) (fate : Fate) :
    Answers Ends (.wait pid) family fate.reported ((family.finish pid fate).take pid .shell) := by
  refine ⟨family.finish pid fate, .single (.ends fate running), .ended ?_⟩
  obtain ⟨one, mem, rightPid, free, unended⟩ := running
  refine ⟨{ one with ending := some fate }, List.mem_map.2 ⟨one, mem, ?_⟩, rightPid, free, rfl⟩
  simp [rightPid, free, unended]

theorem take_finish_append (unknown : pid ∉ older.uncollected) (fate : Fate) :
    (finish (older ++ younger) pid fate).take pid .shell =
      older ++ (finish younger pid fate).take pid .shell := by
  rw [finish, mark_append, mark_of_unknown unknown, take, mark_append, mark_of_unknown unknown, finish,
    take]

section Pairs

variable {child sibling : Child} {other : Pid}

theorem answers_wait_first (fresh : pid ∉ older.uncollected) (apart : other ≠ pid) (fate : Fate) :
    Answers Ends (.wait pid) (older ++ [⟨pid, child, none, []⟩, ⟨other, sibling, none, []⟩])
      fate.reported (older ++ [⟨pid, child, some fate, [.shell]⟩, ⟨other, sibling, none, []⟩]) := by
  have running : Running (older ++ [⟨pid, child, none, []⟩, ⟨other, sibling, none, []⟩]) pid :=
    ⟨⟨pid, child, none, []⟩, by simp, rfl, rfl, rfl⟩
  have waited := answers_wait running fate
  rw [take_finish_append fresh] at waited
  simpa [finish, take, mark, apart] using waited

theorem answers_wait_second {known : Fate} (fresh : other ∉ older.uncollected) (fate : Fate) :
    Answers Ends (.wait other)
      (older ++ [⟨pid, child, some known, [.shell]⟩, ⟨other, sibling, none, []⟩]) fate.reported
      (older ++ [⟨pid, child, some known, [.shell]⟩, ⟨other, sibling, some fate, [.shell]⟩]) := by
  have running : Running (older ++ [⟨pid, child, some known, [.shell]⟩, ⟨other, sibling, none, []⟩])
      other := ⟨⟨other, sibling, none, []⟩, by simp, rfl, rfl, rfl⟩
  have waited := answers_wait running fate
  rw [take_finish_append fresh] at waited
  simpa [finish, take, mark] using waited

end Pairs

/-- The children of a pipe may end in any two ways. -/
theorem exists_siblings (first second : Image) (family : Family) (leftFate rightFate : Fate) :
    ∃ trace after, Launch.Paired first second trace (rightFate.heard.mapError .system) ∧
      Answered (Answers Ends) family trace after ∧
      family.Siblings first second leftFate rightFate after := by
  generalize (⟨3, 4⟩ : Request.Ends) = ends
  obtain ⟨pid, fresh, _⟩ := serves_serve (.fork (Launch.leftChild first ends)) family
  obtain ⟨other, alsoFresh, _⟩ :=
    serves_serve (.fork (Launch.rightChild second ends)) (family.bear pid (Launch.leftChild first ends))
  obtain ⟨apart, unknown⟩ : other ≠ pid ∧ other ∉ family.uncollected := by
    rwa [uncollected_bear, List.mem_append, List.mem_singleton, not_or, and_comm] at alsoFresh
  have born :
      (family.bear pid (Launch.leftChild first ends)).bear other (Launch.rightChild second ends) =
      family ++ [⟨pid, Launch.leftChild first ends, none, []⟩,
        ⟨other, Launch.rightChild second ends, none, []⟩] := by
    simp [bear]
  have awaits (pid : Pid) (fate : Fate) : Job.Awaits pid [⟨.wait pid, fate.reported⟩] fate.heard :=
    .settled fate.verdict_reported
  have paired : Launch.Paired first second
      (⟨.pipe, .ok ends⟩ :: ⟨.fork (Launch.leftChild first ends), .ok pid⟩ ::
        ⟨.fork (Launch.rightChild second ends), .ok other⟩ :: ⟨.close ends.read, ()⟩ ::
        ⟨.close ends.write, ()⟩ ::
        ([⟨.wait pid, leftFate.reported⟩] ++ [⟨.wait other, rightFate.reported⟩]))
      (rightFate.heard.mapError .system) := .both (awaits pid leftFate) (awaits other rightFate)
  refine ⟨_, _, paired, ?_, ends, pid, other, family, .refl, rfl⟩
  refine .cons ⟨family, .refl, ⟨ends, rfl⟩, rfl⟩ (.cons ⟨family, .refl, pid, fresh, rfl, rfl⟩ ?_)
  refine .cons ⟨_, .refl, other, alsoFresh, rfl, born.symm⟩ ?_
  refine .cons ⟨_, .refl, rfl⟩ (.cons ⟨_, .refl, rfl⟩ ?_)
  exact .cons (answers_wait_first fresh apart leftFate)
    (.cons (answers_wait_second unknown rightFate) (.nil _))

/-! ## Testing paths -/

theorem answered_of_tests (family : Family)
    (tests : ∀ event ∈ trace, event.call.IsTest) : Answered (Answers Ends) family trace family := by
  induction trace with
  | nil => exact .nil family
  | cons event rest ih =>
      obtain ⟨test, later⟩ := List.forall_mem_cons.1 tests
      obtain ⟨call, answer⟩ := event
      cases call with
      | pathExists path => exact .cons ⟨family, .refl, rfl⟩ (ih later)
      | _ => exact absurd test not_false

theorem ends_of_tests (answered : Answered (Answers Ends) before trace after)
    (tests : ∀ event ∈ trace, event.call.IsTest) : Relation.ReflTransGen Ends before after := by
  induction answered with
  | nil state => exact .refl
  | @cons call answer state middle final rest here _ ih =>
      obtain ⟨test, later⟩ := List.forall_mem_cons.1 tests
      cases call with
      | pathExists path =>
          obtain ⟨_, drifted, rfl⟩ := here
          exact drifted.trans (ih later)
      | _ => exact absurd test not_false

/-- Whatever a name can come to, it can come to beside any children. -/
theorem locates {name : String} {surroundings : Surroundings} {found : Except NotFound Path}
    (family : Family)
    (run : Runs Freely (Shell.locate name surroundings) () trace found ()) :
    Runs (Answers Ends) (Shell.locate name surroundings) family trace found family :=
  runs_iff_freely.2 ⟨run, answered_of_tests family ((locate_asks name surroundings).runs run)⟩

end Family

/-! ## Pipes of a session -/

/-- The result of a pipe tells how its right child has ended: an ending with a code by the code, any
other by an error. -/
structure Fate.Tells (fate : Fate) (result : Except LaunchError Int) : Prop where
  code : ∀ code, result = .ok code ↔ fate.told = some code
  error : ∀ error, result = .error error ↔ fate.told = none ∧ error = .system .EINVAL

theorem Fate.tells (fate : Fate) : fate.Tells (fate.heard.mapError .system) := by
  unfold heard
  cases told : fate.told with
  | some code => exact ⟨by simp [told, Except.mapError], by simp [told, Except.mapError]⟩
  | none => exact ⟨by simp [told, Except.mapError], by simp [told, Except.mapError, eq_comm]⟩

/-- The complaint about a pipe. -/
def Session.pipeComplaint : Except LaunchError Int → Option Complaint
  | .ok code => codeComplaint code
  | .error error => some (.launch error)

/-- A pipe that is not refused for a NUL: what it asks, what it comes to, and what it leaves. -/
structure Session.FollowsRight (session : Session) (left right : Command) : Prop where
  /-- After the look-ups there are only the calls that start both children and wait for them. -/
  calls : ∀ {σ : Type} (step : (call : Request) → σ → call.Answer → σ → Prop) (state final : σ)
    (trace : Shell.Trace) (result : Except LaunchError Int),
    Runs step (Launch.pipe session.toSurroundings left right) state trace result final →
      (∀ error, result ≠ .error (.nul error)) →
      ∃ early late middle leftFound rightFound first second, trace = early ++ late ∧
        Launch.Looks step session.toSurroundings left right state early leftFound rightFound middle ∧
        first.Carries session.toSurroundings left leftFound.toOption ∧
        second.Carries session.toSurroundings right rightFound.toOption ∧
        Launch.Paired first second late result
  /-- And whatever the system answers to these calls, the pipe goes on so. -/
  answers : ∀ {σ : Type} (step : (call : Request) → σ → call.Answer → σ → Prop) (state middle : σ)
    (trace : Shell.Trace) (leftFound rightFound : Except NotFound Path), WithoutNul session.strings →
    Launch.Looks step session.toSurroundings left right state trace leftFound rightFound middle →
    WithoutNul (left.strings leftFound.toOption ++ right.strings rightFound.toOption) →
    ∃ first second, first.Carries session.toSurroundings left leftFound.toOption ∧
      second.Carries session.toSurroundings right rightFound.toOption ∧
      ∀ more result final, Launch.Paired first second more result → Answered step middle more final →
        Runs step (Launch.pipe session.toSurroundings left right) state (trace ++ more) result final
  /-- Both children are collected, and the result tells of the right one. -/
  collected : ∀ before trace result after,
    Runs (Family.Answers Family.Ends) (Launch.pipe session.toSurroundings left right) before trace
      result after →
    (∀ error, result ≠ .error (.nul error)) →
    ∃ leftProgram rightProgram first second leftFate rightFate,
      first.Carries session.toSurroundings left leftProgram ∧
      second.Carries session.toSurroundings right rightProgram ∧
      before.Siblings first second leftFate rightFate after ∧ rightFate.Tells result
  /-- That comes about for any two endings and whatever the two names come to. -/
  fated : ∀ before leftTrace rightTrace leftFound rightFound, WithoutNul session.strings →
    Runs Freely (Shell.locate left.name session.toSurroundings) () leftTrace leftFound () →
    Runs Freely (Shell.locate right.name session.toSurroundings) () rightTrace rightFound () →
    WithoutNul (left.strings leftFound.toOption ++ right.strings rightFound.toOption) →
    ∀ leftFate rightFate, ∃ trace result after first second,
      Runs (Family.Answers Family.Ends) (Launch.pipe session.toSurroundings left right) before trace
        result after ∧
      first.Carries session.toSurroundings left leftFound.toOption ∧
      second.Carries session.toSurroundings right rightFound.toOption ∧
      before.Siblings first second leftFate rightFate after ∧ rightFate.Tells result
  /-- The line ends with the session that it began with, whatever the pipe came to. -/
  unchanged : ∀ {σ : Type} (step : (call : Request) → σ → call.Answer → σ → Prop) (state final : σ)
    (trace : Shell.Trace) (outcome : Outcome),
    Runs step (session.runPipe left right) state trace outcome final ↔
      ∃ early late middle result, trace = early ++ late ∧
        Runs step (Launch.pipe session.toSurroundings left right) state early result middle ∧
        Runs step (session.reapAndReturn .proceed (pipeComplaint result)) middle late outcome final

theorem Session.runPipe_bind (session : Session) (left right : Command) :
    session.runPipe left right =
      Launch.pipe session.toSurroundings left right >>= fun result =>
        session.reapAndReturn .proceed (pipeComplaint result) := by
  unfold Session.runPipe
  refine congrArg _ (funext fun result => ?_)
  cases result <;> rfl

section

variable {σ : Type} {step : (call : Request) → σ → call.Answer → σ → Prop} {state final : σ}
variable {trace : Shell.Trace} {surroundings : Surroundings} {left right : Command}
variable {result : Except LaunchError Int}

/-- A pipe that was not refused is its look-ups and the calls for both children. -/
theorem Program.Runs.of_unrefused_pipe
    (run : Runs step (Launch.pipe surroundings left right) state trace result final)
    (accepted : ∀ error, result ≠ .error (.nul error)) :
    ∃ early late middle leftFound rightFound first second, trace = early ++ late ∧
      Launch.Looks step surroundings left right state early leftFound rightFound middle ∧
      first.Carries surroundings left leftFound.toOption ∧
      second.Carries surroundings right rightFound.toOption ∧
      Runs step (Launch.pair first second) middle late result final := by
  rcases run.of_looked with ⟨error, _, refused, _⟩ |
    ⟨_, early, late, middle, leftFound, rightFound, rfl, looks, ensues⟩
  · exact absurd refused (accepted error)
  · rcases ensues with ⟨error, _, refused, _⟩ | ⟨first, second, _, leftCarries, rightCarries, run⟩
    · exact absurd refused (accepted error)
    · exact ⟨early, late, middle, leftFound, rightFound, first, second, rfl, looks, leftCarries,
        rightCarries, run⟩

theorem Launch.Looks.answered {leftFound rightFound : Except NotFound Path}
    (looks : Launch.Looks step surroundings left right state trace leftFound rightFound final) :
    Answered step state trace final := by
  obtain ⟨early, late, middle, rfl, leftLooked, rightLooked⟩ := looks
  exact answered_append.2 ⟨middle, leftLooked.answers, rightLooked.answers⟩

end

/-- Only the right child of a pipe counts, and both are collected whatever becomes of them. -/
theorem Session.pipe_follows_right (session : Session) (left right : Command) :
    session.FollowsRight left right where
  calls step state final trace result run accepted := by
    obtain ⟨early, late, middle, leftFound, rightFound, first, second, rfl, looks, leftCarries,
      rightCarries, run⟩ := run.of_unrefused_pipe accepted
    exact ⟨early, late, middle, leftFound, rightFound, first, second, rfl, looks, leftCarries,
      rightCarries, run.paired⟩
  answers step state middle trace leftFound rightFound clean looks clear := by
    obtain ⟨context, first, second, prepared, passed, leftCarries, rightCarries⟩ :=
      Launch.exists_images clean clear
    refine ⟨first, second, leftCarries, rightCarries, fun more result final paired answered => ?_⟩
    exact looks.runs_pipe prepared passed (runs_iff_freely.2 ⟨paired.runs, answered⟩)
  collected before trace result after run accepted := by
    obtain ⟨early, late, middle, leftFound, rightFound, first, second, rfl, looks, leftCarries,
      rightCarries, run⟩ := run.of_unrefused_pipe accepted
    obtain ⟨leftFate, rightFate, ⟨ends, pid, other, aged, toAged, siblings⟩, rfl⟩ :=
      Family.siblings_of_paired run.paired run.answers
    have toMiddle := Family.ends_of_tests looks.answered looks.tests
    exact ⟨_, _, first, second, leftFate, rightFate, leftCarries, rightCarries,
      ⟨ends, pid, other, aged, toMiddle.trans toAged, siblings⟩, rightFate.tells⟩
  fated before leftTrace rightTrace leftFound rightFound clean leftLooked rightLooked clear leftFate
      rightFate := by
    have looks : Launch.Looks (Family.Answers Family.Ends) session.toSurroundings left right before
        (leftTrace ++ rightTrace) leftFound rightFound before :=
      ⟨leftTrace, rightTrace, before, rfl, Family.locates before leftLooked,
        Family.locates before rightLooked⟩
    obtain ⟨context, first, second, prepared, passed, leftCarries, rightCarries⟩ :=
      Launch.exists_images clean clear
    obtain ⟨more, after, paired, answered, siblings⟩ :=
      Family.exists_siblings first second before leftFate rightFate
    have run := looks.runs_pipe prepared passed (runs_iff_freely.2 ⟨paired.runs, answered⟩)
    exact ⟨_, _, after, first, second, run, leftCarries, rightCarries, siblings, rightFate.tells⟩
  unchanged step state final trace outcome := by
    rw [Session.runPipe_bind]
    exact runs_bind

end LineShell
