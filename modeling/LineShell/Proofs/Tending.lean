/-
# LineShell.Proofs.Tending -- what each part of the shell does to its children

The system starts and keeps children as it should, and nobody else takes a status.
`Family.Shows` is what the shell can know of a family then: the children that were
started, the pids that are uncollected, each once, and that every other child was
collected once and by the shell.  It is not disturbed by children that end.

There is one statement for each part of the shell, from a single wait up to a whole
line.  Each starts from a family that shows some births and pids and says which
ones are shown at the end; on the way no wait finds nothing (`Stray`).  A line ends
in one of two ways.  It *settles* when every child that it started is collected
(`Settles`), and it *detaches* when it has started one child more than before, which
is the last one in the registry (`SendsOff`).  `runLine_tends` says which line does
which.
-/
import LineShell.Proofs.Draining
import LineShell.Proofs.Except
import LineShell.Proofs.Family
import LineShell.Session
import Mathlib.Data.List.Nodup

namespace LineShell

set_option autoImplicit false

/-- A wait that found nothing to wait for. -/
def Stray : Program.Event Request Request.Answer → Prop
  | ⟨.wait _, answer⟩ => answer = .error .ECHILD
  | ⟨.poll _, answer⟩ => answer = .error .ECHILD
  | _ => False

namespace Family

/-- What the shell knows of its children when only it collects them. -/
structure Shows (family : Family) (births : List (Pid × Child)) (pids : List Pid) : Prop where
  births : family.births = births
  uncollected : family.uncollected = pids
  nodup : pids.Nodup
  takers : ∀ one ∈ family, one.takers = [] ∨ one.takers = [.shell]

variable {family after : Family} {births : List (Pid × Child)} {pids : List Pid} {pid : Pid}

theorem Shows.bear (shows : family.Shows births pids) (fresh : pid ∉ pids) (child : Child) :
    (family.bear pid child).Shows (births ++ [(pid, child)]) (pids ++ [pid]) where
  births := by simp [shows.births]
  uncollected := by simp [shows.uncollected]
  nodup := shows.nodup.append (by simp) (by simpa using fresh)
  takers := by
    intro one mem
    rcases List.mem_append.1 mem with old | new
    · exact shows.takers one old
    · obtain rfl := List.mem_singleton.1 new
      exact .inl rfl

theorem Shows.ends (shows : family.Shows births pids) (ends : family.Ends after) :
    after.Shows births pids := by
  cases ends with
  | ends fate running =>
      refine ⟨by simp [shows.births], by simp [shows.uncollected], shows.nodup, ?_⟩
      intro one mem
      obtain ⟨old, found, rfl⟩ := List.mem_map.1 mem
      have taken := shows.takers old found
      split <;> exact taken

theorem Shows.drift (shows : family.Shows births pids)
    (drifts : Relation.ReflTransGen Family.Ends family after) : after.Shows births pids :=
  drift_keeps (fun before _ ends (shows : before.Shows births pids) => shows.ends ends) drifts shows

theorem Shows.take (shows : family.Shows births pids) :
    (family.take pid .shell).Shows births (pids.filter (· ≠ pid)) where
  births := by simp [shows.births]
  uncollected := by simp [shows.uncollected]
  nodup := shows.nodup.filter _
  takers := by
    intro one mem
    obtain ⟨old, found, rfl⟩ := List.mem_map.1 mem
    split
    · next marked => exact .inr (by simp [marked.2])
    · exact shows.takers old found

/-- A wait for a known child finds it, and collects it exactly when the answer is conclusive. -/
theorem Shows.looks (shows : family.Shows births pids) (known : pid ∈ pids)
    {answer : Except Errno WaitStatus} (looks : Looks pid family answer after) :
    answer ≠ .error .ECHILD ∧
      after.Shows births (if Job.undecided answer then pids else pids.filter (· ≠ pid)) := by
  cases looks with
  | ended ended =>
      rename_i fate
      rcases fate.reported_cases with ⟨code, told, final⟩ | untold
      · rw [told]
        exact ⟨by simp, by simpa [Job.undecided_ok, final] using shows.take⟩
      · rw [untold]
        exact ⟨by simp, by simpa [Job.undecided_error_iff] using shows.take⟩
  | running _ unfinished =>
      exact ⟨by simp, by simpa [Job.undecided_ok, unfinished] using shows⟩
  | interrupted _ => exact ⟨by simp, by simpa [Job.undecided_error_iff] using shows⟩
  | nothing unknown => exact absurd (shows.uncollected ▸ known) unknown

end Family

/-! ## Programs on a family -/

/-- Whatever happens to the children, no wait is a stray one and the program ends in `post`. -/
def Tends {α : Type} (program : Shell α) (post : α → Family → Prop) (family : Family) : Prop :=
  program.Assures (Family.Answers Family.Ends) (fun event => ¬ Stray event) post family

section Rules

variable {α β : Type} {family : Family} {births : List (Pid × Child)} {pids : List Pid}

@[simp] theorem tends_pure {value : α} {post : α → Family → Prop} :
    Tends (pure value) post family ↔ post value family :=
  Iff.rfl

@[simp] theorem tends_bind {program : Shell α} {rest : α → Shell β} {post : β → Family → Prop} :
    Tends (program >>= rest) post family ↔
      Tends program (fun value middle => Tends (rest value) post middle) family :=
  Program.assures_bind

theorem Tends.imp {program : Shell α} {post weaker : α → Family → Prop}
    (tends : Tends program post family)
    (implied : ∀ value after, post value after → weaker value after) : Tends program weaker family :=
  Program.Assures.imp tends implied

/-- What a program tends to holds along every run, finished or not. -/
theorem Tends.reaches {program rest : Shell α} {post : α → Family → Prop} {after : Family}
    {trace : List (Program.Event Request Request.Answer)} (tends : Tends program post family)
    (run : Program.Reaches (Family.Answers Family.Ends) program family trace rest after) :
    ∀ event ∈ trace, ¬ Stray event :=
  (Program.Assures.reaches tends run).2

theorem Tends.runs {program : Shell α} {post : α → Family → Prop} {after : Family} {value : α}
    {trace : List (Program.Event Request Request.Answer)} (tends : Tends program post family)
    (run : Program.Runs (Family.Answers Family.Ends) program family trace value after) :
    post value after ∧ ∀ event ∈ trace, ¬ Stray event :=
  Program.Assures.runs tends run

theorem ages_of_runs {program : Shell α} {after : Family} {value : α}
    {trace : List (Program.Event Request Request.Answer)}
    (run : Program.Runs (Family.Answers Family.Ends) program family trace value after) :
    family.Ages after :=
  run.preserves Family.Ages.refl Family.Ages.trans (Family.Ages.answers fun _ _ => Family.Ages.ends)

/-- A call that has nothing to do with children. -/
theorem system_tends (request : Request) (post : request.Answer → Prop)
    (shows : family.Shows births pids)
    (quiet : ∀ before answer after, Family.Serves request before answer after →
      ¬ Stray ⟨request, answer⟩ ∧ post answer ∧ after = before) :
    Tends (Shell.system request) (fun answer after => post answer ∧ after.Shows births pids)
      family := by
  refine Program.assures_request fun answer after answered => ?_
  obtain ⟨middle, drifted, served⟩ := answered
  obtain ⟨noStray, holds, rfl⟩ := quiet middle answer after served
  exact ⟨noStray, holds, shows.drift drifted⟩

theorem fork_tends (shows : family.Shows births pids) (child : Child) :
    Tends (Shell.system (.fork child))
      (fun answer after => ∃ pid, answer = .ok pid ∧ pid ∉ pids ∧
        after.Shows (births ++ [(pid, child)]) (pids ++ [pid])) family := by
  refine Program.assures_request fun answer after answered => ⟨not_false, ?_⟩
  obtain ⟨middle, drifted, pid, fresh, rfl, rfl⟩ := answered
  have shows := shows.drift drifted
  rw [shows.uncollected] at fresh
  exact ⟨pid, rfl, fresh, shows.bear fresh child⟩

end Rules

/-- The pids of a registry. -/
abbrev Registry.pids (registry : Registry) : List Pid :=
  registry.map Job.pid

/-! ## Waiting and polling -/

section Waiting

variable {family : Family} {births : List (Pid × Child)} {pids : List Pid} {pid : Pid}

/-- Waiting for a known child collects it. -/
theorem await_tends (shows : family.Shows births pids) (known : pid ∈ pids) :
    Tends (Job.await pid) (fun _ after => after.Shows births (pids.filter (· ≠ pid))) family := by
  unfold Job.await
  refine tends_bind.2 (Program.assures_insist (·.Shows births pids) shows ?_)
  rintro before answer after shows ⟨middle, drifted, looks⟩
  obtain ⟨found, shows⟩ := (shows.drift drifted).looks known looks
  refine ⟨found, ?_⟩
  split at shows
  · next waits => exact (if_pos waits).mpr shows
  · next done => exact (if_neg done).mpr shows

/-- Polling a known child collects it exactly when the answer is conclusive. -/
theorem poll_tends (shows : family.Shows births pids) (known : pid ∈ pids) :
    Tends (Shell.repeatedly (.poll pid) Registry.interrupted)
      (fun answer after => Registry.interrupted answer = false ∧
        after.Shows births (if Job.undecided answer then pids else pids.filter (· ≠ pid))) family := by
  refine Program.assures_insist (·.Shows births pids) shows ?_
  rintro before answer after shows ⟨middle, drifted, looks⟩
  obtain ⟨found, shows⟩ := (shows.drift drifted).looks known looks
  refine ⟨found, ?_⟩
  cases again : Registry.interrupted answer with
  | false => simpa using shows
  | true =>
      -- An interrupted poll has told nothing, so the child is still there.
      obtain rfl := Registry.interrupted_iff.1 again
      simpa [Job.undecided_error_iff] using shows

theorem Registry.pids_without {kept rest : Registry} {job : Job}
    (nodup : (Registry.pids (kept ++ job :: rest)).Nodup) :
    (Registry.pids (kept ++ job :: rest)).filter (· ≠ job.pid) = Registry.pids (kept ++ rest) := by
  simp only [Registry.pids, List.map_append, List.map_cons] at nodup ⊢
  obtain ⟨_, later, apart⟩ := List.nodup_append.1 nodup
  have notKept : ∀ other ∈ kept.map Job.pid, other ≠ job.pid :=
    fun other mem => apart other mem job.pid (by simp)
  have notRest : ∀ other ∈ rest.map Job.pid, other ≠ job.pid := by
    rintro other mem rfl
    exact (List.nodup_cons.1 later).1 mem
  rw [List.filter_append, List.filter_cons_of_neg (by simp),
    List.filter_eq_self.2 (by simpa using notKept), List.filter_eq_self.2 (by simpa using notRest)]

/-- A poll leaves in the registry, in order, the jobs that are not collected. -/
theorem pollFrom_tends (rest : Registry) :
    ∀ (kept : Registry) (family : Family), family.Shows births (Registry.pids (kept ++ rest)) →
      Tends (Registry.pollFrom kept rest)
        (fun result after => result.2.Sublist (kept ++ rest) ∧
          after.Shows births (Registry.pids result.2)) family := by
  induction rest with
  | nil =>
      intro kept family shows
      exact ⟨by simp, by simpa using shows⟩
  | cons job rest ih =>
      intro kept family shows
      have without := Registry.pids_without shows.nodup
      have shorter : (kept ++ rest).Sublist (kept ++ job :: rest) :=
        (List.sublist_cons_self job rest).append_left kept
      unfold Registry.pollFrom
      rw [tends_bind]
      refine (poll_tends shows (by simp)).imp fun answer after polled => ?_
      obtain ⟨usable, shows⟩ := polled
      rcases answer with errno | status
      · have told : ¬ Job.undecided (.error errno) = true := by
          intro untold
          rw [Job.undecided_error_iff.1 untold] at usable
          exact absurd usable (by simp [Registry.interrupted])
        rw [if_neg told, without] at shows
        exact (ih kept after shows).imp fun result last ended => ⟨ended.1.trans shorter, ended.2⟩
      · cases final : status.code with
        | some code =>
            rw [Job.undecided_ok, if_neg (by simp [final]), without] at shows
            simp only [final]
            exact ⟨shorter, shows⟩
        | none =>
            rw [Job.undecided_ok, if_pos (by simp [final])] at shows
            simpa [final] using ih (kept ++ [job]) after (by simpa using shows)

/-- Draining leaves in the registry, in order, the jobs that are not collected. -/
theorem drainWithin_tends (limit : Nat) :
    ∀ (registry : Registry) (family : Family), family.Shows births (Registry.pids registry) →
      Tends (Registry.drainWithin limit registry)
        (fun result after => result.2.Sublist registry ∧ after.Shows births (Registry.pids result.2))
        family := by
  induction limit with
  | zero => exact fun registry family shows => ⟨List.Sublist.refl _, shows⟩
  | succ limit ih =>
      intro registry family shows
      unfold Registry.drainWithin
      rw [tends_bind]
      refine (pollFrom_tends registry [] family (by simpa using shows)).imp fun polled after found => ?_
      obtain ⟨poll, left⟩ := polled
      obtain ⟨sub, shows⟩ := found
      have sub : left.Sublist registry := by simpa using sub
      cases poll with
      | terminated pid code =>
          simp only [tends_bind, tends_pure]
          exact (ih left after shows).imp fun result last ended => ⟨ended.1.trans sub, ended.2⟩
      | noneReady => exact ⟨sub, shows⟩
      | noChildren => exact ⟨sub, shows⟩

theorem drain_tends {registry : Registry} (shows : family.Shows births (Registry.pids registry)) :
    Tends registry.drain
      (fun result after => result.2.Sublist registry ∧ after.Shows births (Registry.pids result.2))
      family :=
  drainWithin_tends _ registry family shows

end Waiting

/-! ## Launching -/

section Launching

variable {family : Family} {births : List (Pid × Child)} {pids : List Pid}

/-- None of the children was started with one of the pids. -/
def Apart (started : List (Pid × Child)) (pids : List Pid) : Prop :=
  ∀ birth ∈ started, birth.1 ∉ pids

/-- Every child that was started is collected again, and the others are as they were. -/
def Cleared (births : List (Pid × Child)) (pids : List Pid) (after : Family) : Prop :=
  ∃ started, Apart started pids ∧ after.Shows (births ++ started) pids

theorem cleared_of_shows (shows : family.Shows births pids) : Cleared births pids family :=
  ⟨[], by simp [Apart], by simpa using shows⟩

theorem locate_tends (shows : family.Shows births pids) (name : String)
    (surroundings : Surroundings) :
    Tends (Shell.locate name surroundings) (fun _ after => after.Shows births pids) family := by
  have search : ∀ (paths : List Path) (family : Family), family.Shows births pids →
      Tends (Shell.firstExisting paths) (fun _ after => after.Shows births pids) family := by
    intro paths
    induction paths with
    | nil => exact fun _ shows => shows
    | cons path rest ih =>
        intro family shows
        unfold Shell.firstExisting
        rw [tends_bind]
        have asked := system_tends (.pathExists path) (fun _ => True) shows
          fun _ _ _ served => ⟨not_false, trivial, served⟩
        refine asked.imp fun there after found => ?_
        split
        · exact found.2
        · exact ih after found.2
  unfold Shell.locate
  rw [tends_bind]
  refine (search _ family shows).imp fun found after shows => ?_
  cases found <;> exact shows

theorem filter_ne_append_self {pid : Pid} (fresh : pid ∉ pids) :
    (pids ++ [pid]).filter (· ≠ pid) = pids := by
  have others : ∀ other ∈ pids, decide (other ≠ pid) = true := by
    intro other known
    exact decide_eq_true fun same => fresh (same ▸ known)
  rw [List.filter_append, List.filter_eq_self.2 others, List.filter_cons_of_neg (by simp)]
  simp

theorem spawn_tends (shows : family.Shows births pids) (child : Child) (background : Bool) :
    Tends (Launch.spawn child background)
      (fun result after => ∃ pid, result = .ok ⟨pid, background⟩ ∧ pid ∉ pids ∧
        after.Shows (births ++ [(pid, child)]) (pids ++ [pid])) family := by
  unfold Launch.spawn
  rw [tends_bind]
  refine (fork_tends shows child).imp fun answer after forked => ?_
  obtain ⟨pid, rfl, fresh, shows⟩ := forked
  exact ⟨pid, rfl, fresh, shows⟩

/-- Nothing is left of what a command in the foreground has started. -/
theorem attached_tends (shows : family.Shows births pids) (surroundings : Surroundings)
    (command : Command) :
    Tends (Launch.command surroundings command false)
      (fun result after => (∀ job, result ≠ .ok (.started job)) ∧ Cleared births pids after)
      family := by
  unfold Launch.command
  rw [tends_bind]
  refine (locate_tends shows _ _).imp fun found middle shows => ?_
  rcases found with error | program
  · exact ⟨by simp, cleared_of_shows shows⟩
  simp only
  split
  · exact ⟨by simp, cleared_of_shows shows⟩
  · next image _ =>
      rw [tends_bind]
      refine (spawn_tends shows _ _).imp fun forked middle born => ?_
      obtain ⟨pid, rfl, fresh, shows⟩ := born
      simp only [Bool.false_eq_true, if_false, tends_bind]
      refine (await_tends shows (by simp)).imp fun waited after shows => ?_
      rw [filter_ne_append_self fresh] at shows
      have cleared : Cleared births pids after :=
        ⟨[(pid, ⟨image, none⟩)], by simpa [Apart] using fresh, shows⟩
      cases waited <;> exact ⟨by simp, cleared⟩

/-- The last birth is a command's, which was started alone. -/
def Begun (family : Family) (births : List (Pid × Child)) (pids : List Pid) (command : Command)
    (pid : Pid) : Prop :=
  ∃ child : Child, child.wiring = none ∧ child.image.name = command.name ∧ pid ∉ pids ∧
    family.Shows (births ++ [(pid, child)]) (pids ++ [pid])

theorem image_name {surroundings : Surroundings} {command : Command} {program : Path} {image : Image}
    (prepared : Launch.image surroundings command program = .ok image) :
    image.name = command.name := by
  simp only [Launch.image, Image.prepare, bind_eq_ok_iff] at prepared
  obtain ⟨_, _, _, _, _, _, _, _, _, _, made⟩ := prepared
  cases made
  rfl

/-- A command in the background is the last child, or nothing was started. -/
theorem detached_tends (shows : family.Shows births pids) (surroundings : Surroundings)
    (command : Command) :
    Tends (Launch.command surroundings command true)
      (fun result after =>
        (∃ pid, result = .ok (.started ⟨pid, true⟩) ∧ Begun after births pids command pid) ∨
        (∃ error, result = .error error) ∧ after.Shows births pids) family := by
  unfold Launch.command
  rw [tends_bind]
  refine (locate_tends shows _ _).imp fun found middle shows => ?_
  rcases found with error | program
  · exact .inr ⟨⟨_, rfl⟩, shows⟩
  simp only
  split
  · exact .inr ⟨⟨_, rfl⟩, shows⟩
  · next image prepared =>
      rw [tends_bind]
      refine (spawn_tends shows _ _).imp fun forked middle born => ?_
      obtain ⟨pid, rfl, fresh, shows⟩ := born
      exact .inl ⟨pid, rfl, _, rfl, image_name prepared, fresh, shows⟩

theorem stages_tends (shows : family.Shows births pids) (left right : Image) (ends : Request.Ends) :
    Tends (Launch.stages left right ends) (fun _ after => Cleared births pids after) family := by
  have closed {births : List (Pid × Child)} {pids : List Pid} {family : Family}
      (shows : family.Shows births pids) (descriptor : Descriptor) :
      Tends (Shell.system (.close descriptor)) (fun _ after => True ∧ after.Shows births pids) family :=
    system_tends (.close descriptor) (fun _ => True) shows
      fun _ _ _ served => ⟨not_false, trivial, served⟩
  unfold Launch.stages
  rw [tends_bind]
  refine (spawn_tends shows _ _).imp fun forked middle born => ?_
  obtain ⟨first, rfl, firstFresh, shows⟩ := born
  simp only [tends_bind]
  refine (spawn_tends shows _ _).imp fun forked middle born => ?_
  obtain ⟨second, rfl, secondFresh, shows⟩ := born
  refine (closed shows _).imp fun _ middle shows => ?_
  refine (closed shows.2 _).imp fun _ middle shows => ?_
  refine (await_tends shows.2 (by simp)).imp fun _ middle shows => ?_
  have apart : second ≠ first := by
    rintro rfl
    exact secondFresh (by simp)
  rw [List.filter_append, filter_ne_append_self firstFresh,
    List.filter_cons_of_pos (by simpa using apart), List.filter_nil] at shows
  have secondFresh : second ∉ pids := fun known => secondFresh (by simp [known])
  simp only [tends_bind]
  refine (await_tends shows (by simp)).imp fun waited after shows => ?_
  rw [filter_ne_append_self secondFresh, List.append_assoc] at shows
  have cleared : Cleared births pids after := ⟨_, by simp [Apart, firstFresh, secondFresh], shows⟩
  cases waited <;> exact cleared

/-- Nothing is left of what a pipe has started. -/
theorem pipe_tends (shows : family.Shows births pids) (surroundings : Surroundings)
    (left right : Command) :
    Tends (Launch.pipe surroundings left right) (fun _ after => Cleared births pids after)
      family := by
  unfold Launch.pipe
  split
  · exact cleared_of_shows shows
  · simp only [tends_bind]
    refine (locate_tends shows _ _).imp fun leftFound middle shows => ?_
    refine (locate_tends shows _ _).imp fun rightFound middle shows => ?_
    split
    · exact cleared_of_shows shows
    · rw [tends_bind]
      have made := system_tends .pipe (fun answer => ∃ ends, answer = .ok ends) shows
        fun _ _ _ served => ⟨not_false, served⟩
      refine made.imp fun _ middle made => ?_
      obtain ⟨⟨ends, rfl⟩, shows⟩ := made
      exact stages_tends shows _ _ ends

end Launching

/-! ## Lines -/

section Lines

variable {family : Family} {births : List (Pid × Child)}

/-- The text of a line without the characters that end it. -/
def Session.textOf (line : String) : String :=
  String.ofList (dropTrailing Session.isLineEnd line.toList)

/-- The line sends a single command to the background. -/
def Session.Detached (line : String) (command : Command) : Prop :=
  Builtin.ofLine? (textOf line) = none ∧ (Marked.ofLine (textOf line)).background = true ∧
    Line.parse (Marked.ofLine (textOf line)).rest = .ok (.simple command)

/-- Every child that the line has started is collected; the registry has what is left of it. -/
def Settles (session : Session) (births : List (Pid × Child)) (outcome : Session.Outcome)
    (after : Family) : Prop :=
  outcome.session.jobs.Sublist session.jobs ∧
    ∃ started, Apart started (Registry.pids session.jobs) ∧
      after.Shows (births ++ started) (Registry.pids outcome.session.jobs)

/-- The line has started one child, which is now the last one in the registry, or none. -/
def SendsOff (session : Session) (births : List (Pid × Child)) (command : Command)
    (outcome : Session.Outcome) (after : Family) : Prop :=
  (∃ pid, outcome.session.jobs = session.jobs ++ [⟨pid, true⟩] ∧ outcome.notices = [.started pid] ∧
    Begun after births (Registry.pids session.jobs) command pid) ∨
  outcome.session.jobs = session.jobs ∧ after.Shows births (Registry.pids session.jobs)

theorem reapAndReturn_tends {session : Session}
    (shows : family.Shows births (Registry.pids session.jobs)) (flow : Flow)
    (complaint : Option Complaint) :
    Tends (session.reapAndReturn flow complaint)
      (fun outcome after => outcome.session.jobs.Sublist session.jobs ∧
        after.Shows births (Registry.pids outcome.session.jobs)) family := by
  unfold Session.reapAndReturn Session.reap
  simp only [tends_bind, tends_pure]
  exact drain_tends shows

/-- A line that ends by collecting jobs settles, whatever it has started and collected before. -/
theorem settles_of_cleared {session : Session}
    (cleared : Cleared births (Registry.pids session.jobs) family) (flow : Flow)
    (complaint : Option Complaint) :
    Tends (session.reapAndReturn flow complaint) (Settles session births) family := by
  obtain ⟨started, apart, shows⟩ := cleared
  refine (reapAndReturn_tends shows flow complaint).imp fun outcome after ended => ?_
  exact ⟨ended.1, started, apart, ended.2⟩

theorem runBuiltin_tends {session : Session}
    (shows : family.Shows births (Registry.pids session.jobs)) (builtin : Builtin) :
    Tends (session.runBuiltin builtin) (Settles session births) family := by
  have unmoved {after : Family} {outcome : Session.Outcome}
      (same : outcome.session.jobs = session.jobs)
      (shows : after.Shows births (Registry.pids session.jobs)) :
      Settles session births outcome after :=
    ⟨same ▸ .refl _, [], by simp [Apart], by simpa [same] using shows⟩
  cases builtin with
  | exit => exact settles_of_cleared (cleared_of_shows shows) .exit none
  | changeDirectory argument =>
      unfold Session.runBuiltin
      rw [tends_bind]
      unfold Session.changeDirectory
      split
      · exact unmoved rfl shows
      · next target _ =>
          rw [tends_bind]
          refine (system_tends (.canonicalize _) (fun _ => True) shows
            fun _ _ _ served => ⟨not_false, trivial, served⟩).imp fun resolved middle found => ?_
          rcases resolved with errno | resolved
          · exact unmoved rfl found.2
          · simp only [tends_bind]
            refine (system_tends (.isDirectory resolved) (fun _ => True) found.2
              fun _ _ _ served => ⟨not_false, trivial, served⟩).imp fun there after found => ?_
            split
            · exact unmoved rfl found.2
            · exact unmoved rfl found.2

theorem runAttached_tends {session : Session}
    (shows : family.Shows births (Registry.pids session.jobs)) (command : Command) :
    Tends (session.runAttached command) (Settles session births) family := by
  unfold Session.runAttached Session.execute
  simp only [tends_bind]
  refine (attached_tends shows session.toSurroundings command).imp fun result middle ended => ?_
  obtain ⟨unstarted, cleared⟩ := ended
  rcases result with error | ⟨code | job⟩
  · exact settles_of_cleared cleared _ _
  · exact settles_of_cleared cleared _ _
  · exact absurd rfl (unstarted job)

theorem runDetached_tends {session : Session}
    (shows : family.Shows births (Registry.pids session.jobs)) (command : Command) :
    Tends (session.runDetached command) (SendsOff session births command) family := by
  unfold Session.runDetached Session.execute
  simp only [tends_bind]
  refine (detached_tends shows session.toSurroundings command).imp fun result middle ended => ?_
  rcases ended with ⟨pid, rfl, begun⟩ | ⟨⟨error, rfl⟩, shows⟩
  · exact .inl ⟨pid, rfl, rfl, begun⟩
  · exact .inr ⟨rfl, shows⟩

theorem runPipe_tends {session : Session}
    (shows : family.Shows births (Registry.pids session.jobs)) (left right : Command) :
    Tends (session.runPipe left right) (Settles session births) family := by
  unfold Session.runPipe
  rw [tends_bind]
  refine (pipe_tends shows session.toSurroundings left right).imp fun result middle cleared => ?_
  cases result with
  | ok code => exact settles_of_cleared cleared _ _
  | error error => exact settles_of_cleared cleared _ _

theorem runCommandLine_tends {session : Session}
    (shows : family.Shows births (Registry.pids session.jobs)) (text : String) :
    Tends (session.runCommandLine text)
      (fun outcome after => Settles session births outcome after ∨
        ∃ command, (Marked.ofLine text).background = true ∧
          Line.parse (Marked.ofLine text).rest = .ok (.simple command) ∧
          SendsOff session births command outcome after) family := by
  unfold Session.runCommandLine
  generalize Marked.ofLine text = marked
  obtain ⟨rest, background⟩ := marked
  simp only
  split
  · exact (settles_of_cleared (cleared_of_shows shows) _ _).imp fun _ _ settles => .inl settles
  · next command parsed =>
      split
      · next sent =>
          exact (runDetached_tends shows command).imp fun _ _ ended =>
            .inr ⟨command, sent, parsed, ended⟩
      · exact (runAttached_tends shows command).imp fun _ _ settles => .inl settles
  · exact (runPipe_tends shows _ _).imp fun _ _ settles => .inl settles

/-- Every line settles, except one that sends a single command to the background. -/
theorem runLine_tends {session : Session}
    (shows : family.Shows births (Registry.pids session.jobs)) (line : String) :
    Tends (session.runLine line)
      (fun outcome after => Settles session births outcome after ∨
        ∃ command, Session.Detached line command ∧ SendsOff session births command outcome after)
      family := by
  unfold Session.runLine Session.Detached Session.textOf
  generalize String.ofList (dropTrailing Session.isLineEnd line.toList) = text
  simp only
  split
  · next builtin _ => exact (runBuiltin_tends shows builtin).imp fun _ _ settles => .inl settles
  · next free =>
      have tends := runCommandLine_tends shows text
      -- Keeps the parser from being evaluated on a text that is not known.
      generalize session.runCommandLine text = program at tends ⊢
      refine tends.imp fun outcome after ended => ?_
      rcases ended with settles | ⟨command, sent, parsed, ended⟩
      · exact .inl settles
      · exact .inr ⟨command, ⟨free, sent, parsed⟩, ended⟩

end Lines

-- A line is not known where these statements are used, and evaluating its parser then never ends.
attribute [irreducible] Tends

end LineShell
