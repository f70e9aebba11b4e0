/-
# LineShell.Proofs.Life -- a session and its children over many lines

A session starts without jobs and without children, runs any lines, and children may
end at any time: between two calls of a line (`Family.Ends` as the drift of
`Family.Answers`) and between two lines.  `Life` is what can come of that, with every
line that was run, the calls it asked, and the children before and after it.

`Life.registry_agrees` is the agreement of the registry with the system: between two
lines the registry lists exactly the uncollected children, in the order of their
starts; each of them is the one child of a line that sent a command to the
background; every child of any other line was collected by that line; and no wait was
ever made for a child that is not there.  The pid of a collected child may be given
to a new one, so children are told apart by their places in the family.
-/
import LineShell.Proofs.Tending

namespace LineShell

set_option autoImplicit false

/-- A line that a session has run, its calls, and the children before and after it. -/
structure LineRun where
  line : String
  before : Family
  trace : List (Program.Event Request Request.Answer)
  outcome : Session.Outcome
  after : Family

namespace LineRun

/-- The children that the line has started, as they were when it returned. -/
def started (run : LineRun) : Family :=
  run.after.drop run.before.length

/-- The child at a place of the family was started by the line. -/
def Starts (run : LineRun) (place : Nat) : Prop :=
  run.before.length ≤ place ∧ place < run.after.length

end LineRun

/-- What can come of a session that is started in some surroundings. -/
inductive Life (surroundings : Surroundings) : List LineRun → Session → Family → Prop where
  | start : Life surroundings [] (Session.start surroundings) []
  | ends {history : List LineRun} {session : Session} {family after : Family} :
      Life surroundings history session family → family.Ends after →
      Life surroundings history session after
  | line {history : List LineRun} {session : Session} {family after : Family} {line : String}
      {trace : List (Program.Event Request Request.Answer)} {outcome : Session.Outcome} :
      Life surroundings history session family →
      Program.Runs (Family.Answers Family.Ends) (session.runLine line) family trace outcome after →
      Life surroundings (history ++ [⟨line, family, trace, outcome, after⟩]) outcome.session after

/-- How the lines that were run, the registry and the children hang together. -/
structure Agreement (history : List LineRun) (session : Session) (family : Family) : Prop where
  /-- The registry lists the uncollected children in the order of their starts. -/
  registry : session.jobs = family.uncollected.map fun pid => ⟨pid, true⟩
  /-- No two uncollected children have one pid. -/
  distinct : family.uncollected.Nodup
  /-- An uncollected child is the one of a line that sent a single command to the background. -/
  origin : ∀ (place : Nat) (one : Offspring), family[place]? = some one → one.takers = [] →
    ∃ run ∈ history, ∃ command, run.Starts place ∧ Session.Detached run.line command ∧
      one.child.wiring = none ∧ one.child.image.name = command.name ∧
      run.outcome.notices = [.started one.pid]
  /-- A child that is not uncollected was collected once, by the shell. -/
  once : ∀ one ∈ family, one.takers = [] ∨ one.takers = [.shell]
  /-- A line that sends no command to the background has collected its children when it returns. -/
  foreground : ∀ run ∈ history, (∀ command, ¬ Session.Detached run.line command) →
    ∀ one ∈ run.started, one.takers = [.shell]
  /-- Every wait has found the child that it was made for. -/
  found : ∀ run ∈ history, ∀ event ∈ run.trace, ¬ Stray event

section Steps

variable {history : List LineRun} {session : Session} {family after : Family}
variable {births started : List (Pid × Child)} {pids : List Pid}

/-! ## What one line does to the agreement -/

/-- A child that is uncollected now was so before. -/
theorem Family.Ages.uncollected (ages : family.Ages after) {place : Nat} {one : Offspring}
    (inside : place < family.length) (found : after[place]? = some one) (free : one.takers = []) :
    ∃ old, family[place]? = some old ∧ old.takers = [] ∧ one.pid = old.pid ∧ one.child = old.child := by
  obtain ⟨later, foundLater, aged⟩ := ages place family[place] (List.getElem?_eq_getElem inside)
  obtain rfl : later = one := Option.some.inj (foundLater.symm.trans found)
  exact ⟨_, List.getElem?_eq_getElem inside, List.prefix_nil.1 (free ▸ aged.takers), aged.pid,
    aged.child⟩

/-- A child behind the old ones is one of those that were started. -/
theorem Family.Shows.birth_of_new (shows : after.Shows (family.births ++ started) pids) {place : Nat}
    {one : Offspring} (new : family.length ≤ place) (found : after[place]? = some one) :
    started[place - family.length]? = some (one.pid, one.child) := by
  have length : family.births.length = family.length := List.length_map ..
  have birth : after.births[place]? = some (one.pid, one.child) := by
    simp [Family.births, found]
  rwa [shows.births, List.getElem?_append_right (length ▸ new), length] at birth

theorem Family.Shows.mem_of_free (shows : after.Shows births pids) {one : Offspring}
    (mem : one ∈ after) (free : one.takers = []) : one.pid ∈ pids :=
  shows.uncollected ▸ Family.mem_uncollected.2 ⟨one, mem, rfl, free⟩

/-- A line that settles has left none of its own children uncollected. -/
theorem Settles.new_collected {outcome : Session.Outcome}
    (settles : Settles session family.births outcome after) {place : Nat} {one : Offspring}
    (new : family.length ≤ place) (found : after[place]? = some one) : one.takers ≠ [] := by
  obtain ⟨sub, started, apart, shows⟩ := settles
  intro free
  have birth := List.mem_of_getElem? (shows.birth_of_new new found)
  have known := shows.mem_of_free (List.mem_of_getElem? found) free
  exact apart _ birth ((sub.map Job.pid).subset known)

theorem Agreement.shows (agrees : Agreement history session family) :
    family.Shows family.births (Registry.pids session.jobs) where
  births := rfl
  uncollected := by simp [agrees.registry, Registry.pids, Function.comp_def]
  nodup := by simpa [agrees.registry, Registry.pids, Function.comp_def] using agrees.distinct
  takers := agrees.once

theorem Agreement.ends (agrees : Agreement history session family) (ends : family.Ends after) :
    Agreement history session after := by
  have shows := agrees.shows.ends ends
  have same : after.uncollected = family.uncollected :=
    shows.uncollected.trans agrees.shows.uncollected.symm
  refine ⟨same ▸ agrees.registry, same ▸ agrees.distinct, ?_, shows.takers, agrees.foreground,
    agrees.found⟩
  intro place one found free
  have inside : place < family.length := by
    have lengths : after.length = family.length := by
      simpa [Family.births] using congrArg List.length shows.births
    obtain ⟨inside, _⟩ := List.getElem?_eq_some_iff.1 found
    exact lengths ▸ inside
  obtain ⟨old, foundOld, freeOld, pid, child⟩ := (Family.Ages.ends ends).uncollected inside found free
  rw [pid, child]
  exact agrees.origin place old foundOld freeOld

theorem Registry.of_background {registry : Registry}
    (background : ∀ job ∈ registry, job.background = true) :
    registry = (Registry.pids registry).map fun pid => ⟨pid, true⟩ := by
  rw [Registry.pids, List.map_map]
  have same : ∀ job ∈ registry, (⟨job.pid, true⟩ : Job) = job := by
    rintro ⟨pid, flag⟩ mem
    exact congrArg (Job.mk pid) (background ⟨pid, flag⟩ mem).symm
  exact (List.map_id registry).symm.trans (List.map_congr_left fun job mem => (same job mem).symm)

/-- A line extends the agreement when all that it leaves uncollected is a command that it has sent
to the background. -/
theorem Agreement.extend (agrees : Agreement history session family) {run : LineRun}
    (starts : run.before = family) (ages : run.before.Ages run.after)
    (shows : run.after.Shows births (Registry.pids run.outcome.session.jobs))
    (background : ∀ job ∈ run.outcome.session.jobs, job.background = true)
    (left : ∀ (place : Nat) (one : Offspring), run.before.length ≤ place →
      run.after[place]? = some one → one.takers = [] →
      ∃ command, Session.Detached run.line command ∧ one.child.wiring = none ∧
        one.child.image.name = command.name ∧ run.outcome.notices = [.started one.pid])
    (found : ∀ event ∈ run.trace, ¬ Stray event) :
    Agreement (history ++ [run]) run.outcome.session run.after where
  registry := by
    rw [shows.uncollected]
    exact Registry.of_background background
  distinct := shows.uncollected ▸ shows.nodup
  once := shows.takers
  origin := by
    intro place one at_place free
    by_cases old : place < run.before.length
    · obtain ⟨before, foundBefore, freeBefore, pid, child⟩ := ages.uncollected old at_place free
      obtain ⟨former, mem, from_former⟩ := agrees.origin place before (starts ▸ foundBefore) freeBefore
      rw [pid, child]
      exact ⟨former, List.mem_append_left _ mem, from_former⟩
    · obtain ⟨command, detached, started⟩ := left place one (Nat.not_lt.1 old) at_place free
      obtain ⟨inside, _⟩ := List.getElem?_eq_some_iff.1 at_place
      exact ⟨run, by simp, command, ⟨Nat.not_lt.1 old, inside⟩, detached, started⟩
  foreground := by
    intro former mem notDetached one new
    rcases List.mem_append.1 mem with earlier | last
    · exact agrees.foreground former earlier notDetached one new
    · obtain rfl := List.mem_singleton.1 last
      refine (shows.takers one (List.mem_of_mem_drop new)).resolve_left fun free => ?_
      obtain ⟨place, at_place⟩ := List.mem_iff_getElem?.1 new
      rw [LineRun.started, List.getElem?_drop] at at_place
      obtain ⟨command, detached, _⟩ := left _ one (Nat.le_add_right _ _) at_place free
      exact notDetached command detached
  found := by
    intro former mem
    rcases List.mem_append.1 mem with earlier | last
    · exact agrees.found former earlier
    · exact List.mem_singleton.1 last ▸ found

theorem Agreement.start (surroundings : Surroundings) :
    Agreement [] (Session.start surroundings) [] where
  registry := rfl
  distinct := List.nodup_nil
  origin := by simp
  once := by simp
  foreground := by simp
  found := by simp

theorem Agreement.background (agrees : Agreement history session family) :
    ∀ job ∈ session.jobs, job.background = true := by
  rw [agrees.registry]
  intro job mem
  obtain ⟨_, _, rfl⟩ := List.mem_map.1 mem
  rfl

/-- Every line keeps the agreement. -/
theorem Agreement.line (agrees : Agreement history session family) {line : String}
    {trace : List (Program.Event Request Request.Answer)} {outcome : Session.Outcome}
    (run : Program.Runs (Family.Answers Family.Ends) (session.runLine line) family trace outcome
      after) :
    Agreement (history ++ [⟨line, family, trace, outcome, after⟩]) outcome.session after := by
  have ages : family.Ages after := ages_of_runs run
  obtain ⟨ended, found⟩ := (runLine_tends agrees.shows line).runs run
  rcases ended with settles | ⟨command, detached, ⟨pid, jobs, notices, begun⟩ | ⟨jobs, shows⟩⟩
  · obtain ⟨sub, started, apart, shows⟩ := settles
    refine agrees.extend rfl ages shows (fun job mem => agrees.background job (sub.subset mem)) ?_ found
    intro place one new at_place free
    exact absurd free (Settles.new_collected ⟨sub, started, apart, shows⟩ new at_place)
  · obtain ⟨child, wiring, name, fresh, shows⟩ := begun
    have newShows : after.Shows (family.births ++ [(pid, child)])
        (Registry.pids outcome.session.jobs) := by simpa [jobs] using shows
    refine agrees.extend rfl ages newShows ?_ ?_ found
    · intro job mem
      rcases List.mem_append.1 (jobs ▸ mem) with old | new
      · exact agrees.background job old
      · exact List.mem_singleton.1 new ▸ rfl
    · intro place one new at_place free
      obtain ⟨rfl, rfl⟩ : one.pid = pid ∧ one.child = child := by
        simpa using List.mem_of_getElem? (shows.birth_of_new new at_place)
      exact ⟨command, detached, wiring, name, notices⟩
  · refine agrees.extend rfl ages (jobs ▸ shows) (fun job mem => agrees.background job (jobs ▸ mem))
      ?_ found
    intro place one new at_place free
    have shows : after.Shows (family.births ++ []) (Registry.pids session.jobs) := by simpa using shows
    simpa using shows.birth_of_new new at_place

end Steps

/-- Between two lines the registry lists exactly the uncollected children, which are commands in the
background; no other child is left; and no wait, also of a line that still runs, is a stray one. -/
theorem Life.registry_agrees {surroundings : Surroundings} {history : List LineRun} {session : Session}
    {family : Family} (life : Life surroundings history session family) :
    Agreement history session family ∧
      ∀ (line : String) (trace : List (Program.Event Request Request.Answer))
        (rest : Shell Session.Outcome) (after : Family),
        Program.Reaches (Family.Answers Family.Ends) (session.runLine line) family trace rest after →
          ∀ event ∈ trace, ¬ Stray event := by
  have agrees : Agreement history session family := by
    induction life with
    | start => exact .start surroundings
    | ends _ ends ih => exact ih.ends ends
    | line _ run ih => exact ih.line run
  refine ⟨agrees, fun line trace rest after reached => ?_⟩
  exact (runLine_tends agrees.shows line).reaches reached

/-! ## A life in which a pid is used again -/

/-- Run lines one after another in that system. -/
def Session.runLines (session : Session) (family : Family) : List String → Option (Session × Family)
  | [] => some (session, family)
  | line :: rest =>
      match (session.runLine line).runWith Family.promptly 1 family with
      | none => none
      | some (outcome, after) => outcome.session.runLines after rest

theorem Life.of_runLines {surroundings : Surroundings} {lines : List String} {history : List LineRun}
    {session last : Session} {family after : Family}
    (life : Life surroundings history session family)
    (ran : session.runLines family lines = some (last, after)) :
    ∃ more, more.map LineRun.line = lines ∧ Life surroundings (history ++ more) last after := by
  induction lines generalizing history session family with
  | nil =>
      obtain ⟨rfl, rfl⟩ := Prod.mk.inj (Option.some.inj ran)
      exact ⟨[], rfl, by simpa using life⟩
  | cons line rest ih =>
      rw [Session.runLines] at ran
      split at ran
      · simp at ran
      · next outcome middle executed =>
          obtain ⟨trace, run⟩ := Program.runs_of_runWith Family.promptly_answers executed
          obtain ⟨more, lines, life⟩ := ih (life.line run) ran
          exact ⟨⟨line, family, trace, outcome, middle⟩ :: more, by simp [lines], by simpa using life⟩

/-- The pid of a collected job is given to another one, and everything agrees. -/
theorem Life.registry_agrees_reused :
    ∃ (history : List LineRun) (session : Session) (family : Family),
      Life ⟨Path.ofText "/", []⟩ history session family ∧
      history.map LineRun.line = ["a &", "b | c", "a &"] ∧
      family.map (fun one => (one.pid, one.takers)) =
        [(1, [.shell]), (2, [.shell]), (3, [.shell]), (1, [])] ∧
      session.jobs = [⟨1, true⟩] ∧ Agreement history session family := by
  have ran : ((Session.start ⟨Path.ofText "/", []⟩).runLines [] ["a &", "b | c", "a &"]).map
      (fun last => (last.1.jobs, last.2.map fun one => (one.pid, one.takers))) =
        some ([⟨1, true⟩], [(1, [.shell]), (2, [.shell]), (3, [.shell]), (1, [])]) := by
    decide +kernel
  obtain ⟨⟨session, family⟩, ran, summary⟩ := Option.map_eq_some_iff.1 ran
  obtain ⟨jobs, children⟩ := Prod.mk.inj summary
  obtain ⟨history, lines, life⟩ := Life.of_runLines .start ran
  exact ⟨history, session, family, life, lines, children, jobs, (Life.registry_agrees life).1⟩

end LineShell
