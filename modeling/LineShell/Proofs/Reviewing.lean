/-
# LineShell.Proofs.Reviewing -- one round of polls, whatever is answered

A poll of the registry asks for the jobs in order and goes on until one of them is gone.
What it ends with depends on the answers alone: `Registry.Reviewed` relates the jobs that
were asked for and the answers (`Finding`) to the result and the jobs that are left.  There
are two cases.  Either some answer is a final status; then it is the last one, the jobs
before it are left if their answers were not final, and the jobs after it were not asked
for.  Or every job was asked for, and the jobs with an answer that is not final are left.

`Registry.reviewed_of_pollFrom` says that every run of a poll is such a round, under any
system at all; an interrupted poll is made again and counts as one (`uninterrupted`).
`Registry.runs_of_reviewed` is the converse, so `Registry.pollOnce_reviews` says what a
poll does for every list of jobs and every sequence of answers.
-/
import LineShell.Proofs.Collecting

namespace LineShell

set_option autoImplicit false

open Program

/-! ## Replies -/

/-- A job that was asked for, and the answer. -/
structure Finding where
  job : Job
  answer : Except Errno WaitStatus

namespace Finding

/-- The poll, as a call of the shell. -/
def event (finding : Finding) : Event Request Request.Answer :=
  ⟨.poll finding.job.pid, finding.answer⟩

/-- The exit code, if the answer is a final status. -/
def code? (finding : Finding) : Option Int :=
  finding.answer.toOption.bind WaitStatus.code

/-- The answer is a status, and not a final one. -/
def isPending (finding : Finding) : Bool :=
  match finding.answer with
  | .ok status => status.code.isNone
  | .error _ => false

/-- The jobs with an answer that is not final, in order. -/
def pending (findings : List Finding) : Registry :=
  (findings.filter isPending).map job

variable {job : Job} {status : WaitStatus} {errno : Errno} {findings : List Finding}

theorem code?_error : (Finding.mk job (.error errno)).code? = none :=
  rfl

theorem pending_cons_ok (unfinished : status.code = none) :
    pending (⟨job, .ok status⟩ :: findings) = job :: pending findings := by
  have kept : isPending ⟨job, .ok status⟩ = true := by simp [isPending, unfinished]
  simp [pending, List.filter_cons_of_pos kept]

theorem pending_cons_error :
    pending (⟨job, .error errno⟩ :: findings) = pending findings := by
  have dropped : ¬ isPending ⟨job, .error errno⟩ = true := by simp [isPending]
  simp [pending, List.filter_cons_of_neg dropped]

theorem pending_sublist (findings : List Finding) :
    (pending findings).Sublist (findings.map Finding.job) :=
  List.filter_sublist.map Finding.job

end Finding

/-- The poll was interrupted. -/
def wasInterrupted : Event Request Request.Answer → Bool
  | ⟨.poll _, answer⟩ => Registry.interrupted answer
  | _ => false

/-- The calls of a run that were not interrupted. -/
def uninterrupted (trace : Shell.Trace) : Shell.Trace :=
  trace.filter fun event => !wasInterrupted event

theorem uninterrupted_append (early late : Shell.Trace) :
    uninterrupted (early ++ late) = uninterrupted early ++ uninterrupted late :=
  List.filter_append early late

namespace Registry

/-! ## Rounds -/

/-- The jobs in `rest` were asked for after those in `kept` had been found running: the findings, the
result, and the jobs that are left. -/
inductive Reviewed (kept : Registry) : Registry → List Finding → Poll → Registry → Prop where
  /-- The last finding is the first one that tells of a job that is gone. -/
  | found {findings : List Finding} {last : Finding} {code : Int} (rest : Registry) :
      (∀ finding ∈ findings, finding.code? = none) → last.code? = some code →
      Reviewed kept (findings.map Finding.job ++ last.job :: rest) (findings ++ [last])
        (.terminated last.job.pid code) (kept ++ Finding.pending findings ++ rest)
  /-- Every job was asked for, and none is gone. -/
  | nothing {findings : List Finding} : (∀ finding ∈ findings, finding.code? = none) →
      Reviewed kept (findings.map Finding.job) findings
        (if (kept ++ Finding.pending findings).isEmpty then .noChildren else .noneReady)
        (kept ++ Finding.pending findings)

variable {kept rest left registry : Registry} {findings : List Finding} {poll : Poll} {job : Job}
variable {status : WaitStatus} {code : Int}

theorem reviewed_nil (kept : Registry) :
    Reviewed kept [] [] (if kept.isEmpty then .noChildren else .noneReady) kept := by
  have round := @Reviewed.nothing kept [] (by simp)
  have same : kept ++ Finding.pending [] = kept := List.append_nil kept
  rwa [same] at round

/-- The first job is gone. -/
theorem reviewed_gone (kept rest : Registry) (job : Job) (final : status.code = some code) :
    Reviewed kept (job :: rest) [⟨job, .ok status⟩] (.terminated job.pid code) (kept ++ rest) := by
  have round := @Reviewed.found kept [] ⟨job, .ok status⟩ code rest (by simp) final
  have same : kept ++ Finding.pending [] = kept := List.append_nil kept
  rwa [same] at round

/-- A job that cannot be polled is dropped. -/
theorem Reviewed.drop {errno : Errno} (round : Reviewed kept rest findings poll left) :
    Reviewed kept (job :: rest) (⟨job, .error errno⟩ :: findings) poll left := by
  have none : (Finding.mk job (.error errno)).code? = none := Finding.code?_error
  cases round with
  | found rest before last =>
      have longer := @Reviewed.found kept _ _ _ rest (List.forall_mem_cons.2 ⟨none, before⟩) last
      rwa [Finding.pending_cons_error] at longer
  | nothing all =>
      have longer := @Reviewed.nothing kept _ (List.forall_mem_cons.2 ⟨none, all⟩)
      rwa [Finding.pending_cons_error] at longer

/-- A job that is not gone is left. -/
theorem Reviewed.keep (unfinished : status.code = none)
    (round : Reviewed (kept ++ [job]) rest findings poll left) :
    Reviewed kept (job :: rest) (⟨job, .ok status⟩ :: findings) poll left := by
  have none : (Finding.mk job (.ok status)).code? = none := unfinished
  have joined (findings : List Finding) : kept ++ [job] ++ Finding.pending findings =
      kept ++ Finding.pending (⟨job, .ok status⟩ :: findings) := by
    rw [Finding.pending_cons_ok unfinished, List.append_assoc]
    rfl
  cases round with
  | found rest before last =>
      rw [joined]
      exact .found rest (List.forall_mem_cons.2 ⟨none, before⟩) last
  | nothing all =>
      rw [joined]
      exact .nothing (List.forall_mem_cons.2 ⟨none, all⟩)

section Runs

variable {σ : Type} {step : (call : Request) → σ → call.Answer → σ → Prop} {state middle final : σ}
variable {trace late : Shell.Trace}

theorem uninterrupted_of_poll {pid : Pid} {answer : Except Errno WaitStatus}
    (run : Runs step (Shell.repeatedly (.poll pid) interrupted) state trace answer final) :
    uninterrupted trace = [⟨.poll pid, answer⟩] := by
  obtain ⟨earlier, rfl, usable, before⟩ := run.of_insist
  have gone : uninterrupted (earlier.map (Event.mk (.poll pid))) = [] := by
    refine List.filter_eq_nil_iff.2 fun event mem => ?_
    obtain ⟨finding, there, rfl⟩ := List.mem_map.1 mem
    have again : interrupted finding = true := before finding there
    simp [wasInterrupted, again]
  rw [uninterrupted_append, gone]
  have last : wasInterrupted ⟨.poll pid, answer⟩ = false := usable
  simp [uninterrupted, last]

/-- Every run of a poll is a round, under any system. -/
theorem reviewed_of_pollFrom (rest : Registry) :
    ∀ (kept : Registry) {state : σ} {trace : Shell.Trace},
      Runs step (pollFrom kept rest) state trace (poll, left) final →
        ∃ findings, uninterrupted trace = findings.map Finding.event ∧
          Reviewed kept rest findings poll left := by
  induction rest with
  | nil =>
      intro kept state trace run
      obtain ⟨rfl, same, _⟩ := run.of_pure
      cases same
      exact ⟨[], rfl, reviewed_nil _⟩
  | cons job rest ih =>
      intro kept state trace run
      unfold pollFrom at run
      obtain ⟨early, late, middle, answer, rfl, asked, run⟩ := run.of_bind
      have first : uninterrupted early = [Finding.event ⟨job, answer⟩] := uninterrupted_of_poll asked
      rw [uninterrupted_append, first]
      rcases answer with errno | status
      · obtain ⟨findings, later, round⟩ := ih kept run
        rw [later]
        exact ⟨⟨job, .error errno⟩ :: findings, rfl, round.drop⟩
      · simp only at run
        split at run
        · next code final =>
            obtain ⟨rfl, same, _⟩ := run.of_pure
            cases same
            exact ⟨[⟨job, .ok status⟩], rfl, reviewed_gone kept rest job final⟩
        · next unfinished =>
            obtain ⟨findings, later, round⟩ := ih (kept ++ [job]) run
            rw [later]
            exact ⟨⟨job, .ok status⟩ :: findings, rfl, round.keep unfinished⟩

/-- Replies that do not tell of a job that is gone are gone through, one after the other. -/
theorem runs_of_findings {value : Poll × Registry} (findings : List Finding)
    (usable : ∀ finding ∈ findings, interrupted finding.answer = false)
    (unfinished : ∀ finding ∈ findings, finding.code? = none) :
    ∀ (kept : Registry) {state : σ}, Answered step state (findings.map Finding.event) middle →
      Runs step (pollFrom (kept ++ Finding.pending findings) rest) middle late value final →
        Runs step (pollFrom kept (findings.map Finding.job ++ rest)) state
          (findings.map Finding.event ++ late) value final := by
  induction findings with
  | nil =>
      intro kept state answered run
      cases answered
      have same : kept ++ Finding.pending [] = kept := List.append_nil kept
      rwa [same] at run
  | cons finding findings ih =>
      intro kept state answered run
      obtain ⟨job, answer⟩ := finding
      obtain ⟨usableHere, usableLater⟩ := List.forall_mem_cons.1 usable
      obtain ⟨unfinishedHere, unfinishedLater⟩ := List.forall_mem_cons.1 unfinished
      cases answered with
      | cons here later =>
          have asked : Runs step (Shell.repeatedly (.poll job.pid) interrupted) state
              [⟨.poll job.pid, answer⟩] answer _ := .insist here usableHere
          change Runs step (pollFrom kept (job :: (findings.map Finding.job ++ rest))) state
            ([⟨.poll job.pid, answer⟩] ++ (findings.map Finding.event ++ late)) value final
          unfold pollFrom
          apply asked.bind
          rcases answer with errno | status
          · rw [Finding.pending_cons_error] at run
            exact ih usableLater unfinishedLater kept later run
          · have alive : status.code = none := unfinishedHere
            rw [Finding.pending_cons_ok alive, ← List.singleton_append, ← List.append_assoc] at run
            simp only [alive]
            exact ih usableLater unfinishedLater (kept ++ [job]) later run

/-- A round whose answers a system gives is a run of the poll under this system. -/
theorem runs_of_reviewed (round : Reviewed kept rest findings poll left)
    (usable : ∀ finding ∈ findings, interrupted finding.answer = false)
    (answered : Answered step state (findings.map Finding.event) final) :
    Runs step (pollFrom kept rest) state (findings.map Finding.event) (poll, left) final := by
  cases round with
  | @found before last code rest unfinished final =>
      obtain ⟨usableBefore, usableLast⟩ := List.forall_mem_append.1 usable
      rw [List.map_append] at answered
      obtain ⟨middle, earlier, ending⟩ := answered_append.1 answered
      have here : step (.poll last.job.pid) middle last.answer _ := answered_singleton.1 ending
      have asked : Runs step (Shell.repeatedly (.poll last.job.pid) interrupted) middle
          [⟨.poll last.job.pid, last.answer⟩] last.answer _ :=
        .insist here (usableLast last (List.mem_singleton_self last))
      rw [List.map_append]
      refine runs_of_findings before usableBefore unfinished kept earlier ?_
      unfold pollFrom
      refine asked.bind_done ?_
      obtain ⟨job, answer⟩ := last
      rcases answer with errno | status
      · cases final
      · have gone : status.code = some code := final
        simp only [gone]
        rfl
  | nothing unfinished =>
      have last : Runs step (pollFrom (kept ++ Finding.pending findings) []) final []
          (if (kept ++ Finding.pending findings).isEmpty then .noChildren else .noneReady,
            kept ++ Finding.pending findings) final := .done _ _
      have run := runs_of_findings findings usable unfinished kept answered last
      rwa [List.append_nil, List.append_nil] at run

end Runs

/-- For every sequence of answers that is long enough there is a round with these answers. -/
theorem exists_reviewed (registry : Registry) :
    ∀ (kept : Registry) (answers : List (Except Errno WaitStatus)), registry.length ≤ answers.length →
      ∃ findings poll left, findings.map Finding.answer <+: answers ∧
        Reviewed kept registry findings poll left := by
  induction registry with
  | nil => exact fun kept answers _ => ⟨[], _, _, List.nil_prefix, reviewed_nil kept⟩
  | cons job rest ih =>
      intro kept answers enough
      cases answers with
      | nil => simp at enough
      | cons answer answers =>
          have fewer : rest.length ≤ answers.length := by simpa using enough
          rcases answer with errno | status
          · obtain ⟨findings, poll, left, given, round⟩ := ih kept answers fewer
            exact ⟨⟨job, .error errno⟩ :: findings, poll, left, by simpa using given, round.drop⟩
          · cases final : status.code with
            | some code =>
                exact ⟨[⟨job, .ok status⟩], _, _, by simp, reviewed_gone kept rest job final⟩
            | none =>
                obtain ⟨findings, poll, left, given, round⟩ := ih (kept ++ [job]) answers fewer
                exact ⟨⟨job, .ok status⟩ :: findings, poll, left, by simpa using given,
                  round.keep final⟩

/-! ## What a round says -/

/-- The jobs are asked for in order, each at most once, and none is left out before the round ends. -/
theorem Reviewed.prefix_jobs (round : Reviewed kept rest findings poll left) :
    findings.map Finding.job <+: rest := by
  cases round with
  | @found before last code later _ _ => exact ⟨later, by simp⟩
  | nothing _ => exact List.prefix_rfl

/-- A job is reported exactly when an answer is final. -/
theorem Reviewed.terminated_iff (round : Reviewed kept rest findings poll left) :
    (∃ pid code, poll = .terminated pid code) ↔ ∃ finding ∈ findings, finding.code? ≠ none := by
  cases round with
  | @found before last code later _ final =>
      have told : last.code? ≠ none := by simp [final]
      exact ⟨fun _ => ⟨last, by simp, told⟩, fun _ => ⟨_, _, rfl⟩⟩
  | nothing unfinished =>
      constructor
      · rintro ⟨pid, code, same⟩
        split at same <;> cases same
      · rintro ⟨finding, mem, told⟩
        exact absurd (unfinished finding mem) told

/-- There are no children when no job is left and none has been reported. -/
theorem Reviewed.noChildren_iff (round : Reviewed kept rest findings poll left) :
    poll = .noChildren ↔ left = [] ∧ ∀ finding ∈ findings, finding.code? = none := by
  cases round with
  | @found before last code later _ final =>
      constructor
      · intro same
        cases same
      · rintro ⟨_, unfinished⟩
        have none : last.code? = none := unfinished last (by simp)
        rw [none] at final
        cases final
  | nothing unfinished =>
      have empty_iff (registry : Registry) :
          (if registry.isEmpty then Poll.noChildren else .noneReady) = .noChildren ↔
            registry = [] := by
        cases registry <;> simp
      rw [empty_iff]
      exact ⟨fun none => ⟨none, unfinished⟩, fun both => both.1⟩

/-- A round leaves jobs in their order. -/
theorem Reviewed.sublist (round : Reviewed kept rest findings poll left) :
    left.Sublist (kept ++ rest) := by
  cases round with
  | @found before last code later _ _ =>
      have front : (kept ++ Finding.pending before).Sublist (kept ++ before.map Finding.job) :=
        (List.Sublist.refl kept).append (Finding.pending_sublist before)
      have back : later.Sublist (last.job :: later) := List.sublist_cons_self last.job later
      simpa using front.append back
  | nothing _ => exact (List.Sublist.refl kept).append (Finding.pending_sublist findings)

/-- A job was polled in the round, or is left for the next one. -/
theorem Reviewed.polled_or_left (round : Reviewed kept rest findings poll left) (mem : job ∈ rest) :
    (∃ finding ∈ findings, finding.job = job) ∨ job ∈ left := by
  cases round with
  | @found before last code later _ _ =>
      rcases List.mem_append.1 mem with early | others
      · obtain ⟨finding, there, same⟩ := List.mem_map.1 early
        exact .inl ⟨finding, List.mem_append_left _ there, same⟩
      · rcases List.mem_cons.1 others with rfl | behind
        · exact .inl ⟨last, by simp, rfl⟩
        · exact .inr (List.mem_append_right _ behind)
  | nothing _ =>
      obtain ⟨finding, there, same⟩ := List.mem_map.1 mem
      exact .inl ⟨finding, there, same⟩

theorem Reviewed.reported_registered {pid : Pid} {code : Int}
    (round : Reviewed kept rest findings poll left) (reported : poll = .terminated pid code) :
    pid ∈ rest.map Job.pid := by
  cases round with
  | @found before last _ later _ _ =>
      cases reported
      simp
  | nothing _ => split at reported <;> cases reported

/-- The round ends without a report. -/
theorem Reviewed.of_silent (round : Reviewed kept rest findings poll left)
    (silent : Collected.ofPoll poll = []) :
    left = kept ++ Finding.pending findings ∧ rest = findings.map Finding.job := by
  cases round with
  | found later _ _ => cases silent
  | nothing _ => exact ⟨rfl, rfl⟩

/-- A poll of any list of jobs is a round: whatever the system answers, and for every sequence of
answers; what the round ends with can be read off its answers. -/
theorem pollOnce_reviews (registry : Registry) :
    (∀ (σ : Type) (step : (call : Request) → σ → call.Answer → σ → Prop) (state final : σ)
      (trace : Shell.Trace) (poll : Poll) (left : Registry),
      Runs step registry.pollOnce state trace (poll, left) final →
        ∃ findings, uninterrupted trace = findings.map Finding.event ∧
          Reviewed [] registry findings poll left) ∧
    (∀ answers : List (Except Errno WaitStatus), registry.length ≤ answers.length →
      (∀ answer ∈ answers, interrupted answer = false) →
        ∃ findings poll left, findings.map Finding.answer <+: answers ∧
          Reviewed [] registry findings poll left ∧
          ∀ (σ : Type) (step : (call : Request) → σ → call.Answer → σ → Prop) (state final : σ),
            Answered step state (findings.map Finding.event) final →
              Runs step registry.pollOnce state (findings.map Finding.event) (poll, left) final) ∧
    ∀ findings poll left, Reviewed [] registry findings poll left →
      findings.map Finding.job <+: registry ∧
        ((∃ pid code, poll = .terminated pid code) ↔ ∃ finding ∈ findings, finding.code? ≠ none) ∧
        (poll = .noChildren ↔ left = [] ∧ ∀ finding ∈ findings, finding.code? = none) := by
  refine ⟨fun σ step state final trace poll left run => reviewed_of_pollFrom registry [] run, ?_, ?_⟩
  · intro answers enough usable
    obtain ⟨findings, poll, left, given, round⟩ := exists_reviewed registry [] answers enough
    refine ⟨findings, poll, left, given, round, fun σ step state final answered => ?_⟩
    have usable : ∀ finding ∈ findings, interrupted finding.answer = false :=
      fun finding mem => usable _ (given.subset (List.mem_map_of_mem mem))
    exact runs_of_reviewed round usable answered
  · exact fun findings poll left round =>
      ⟨round.prefix_jobs, round.terminated_iff, round.noChildren_iff⟩

end Registry

end LineShell
