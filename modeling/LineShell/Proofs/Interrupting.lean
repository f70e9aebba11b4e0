/-
# LineShell.Proofs.Interrupting -- answers that make no difference

Waits and polls are answered from a list here, in its order (`Dictates`), and a program
comes to a value when the list is long enough (`Shell.Told`); what stands behind the answer
that it needed last is not read.  Two lists are compared by what was put into one of them,
at any places (`Inserted`).

A program overlooks an answer if it asks again whenever it is given this answer
(`Shell.Overlooks`), which is read off its tree.  Such answers may be put in or left out
anywhere, and the program comes to the same value (`Overlooks.told_iff`).  A list that is
too short is part of this: the program then comes to no value in either case.

`Registry.interruptions_ignored` says which answers a wait, a poll and a drain overlook, and
what they come to if they are not interrupted.  A wait overlooks every answer that leaves it
open what became of the child, and is settled by the first of the others.
-/
import LineShell.Proofs.Bounding

namespace LineShell

set_option autoImplicit false

open Program

/-! ## Lists of answers -/

/-- The second list is the first one with extra elements put in, at any places. -/
inductive Inserted {α : Type} (extra : α → Prop) : List α → List α → Prop where
  | nil : Inserted extra [] []
  | same {one other : List α} (element : α) : Inserted extra one other →
      Inserted extra (element :: one) (element :: other)
  | extra {one other : List α} {element : α} : extra element → Inserted extra one other →
      Inserted extra one (element :: other)

theorem inserted_filter {α : Type} {extra : α → Prop} {isExtra : α → Bool}
    (known : ∀ element, isExtra element = true → extra element) (list : List α) :
    Inserted extra (list.filter fun element => !isExtra element) list := by
  induction list with
  | nil => exact .nil
  | cons element rest ih =>
      cases found : isExtra element with
      | true =>
          rw [List.filter_cons_of_neg (by simp [found])]
          exact .extra (known element found) ih
      | false =>
          rw [List.filter_cons_of_pos (by simp [found])]
          exact .same element ih

/-- What a wait or a poll hears about its child.  The other calls hear nothing. -/
def Request.heard? : (call : Request) → call.Answer → Option (Except Errno WaitStatus)
  | .wait _, answer => some answer
  | .poll _, answer => some answer
  | _, _ => none

theorem Request.heard?_injective {call : Request} {one other : call.Answer}
    {heard : Except Errno WaitStatus} (first : call.heard? one = some heard)
    (second : call.heard? other = some heard) : one = other := by
  cases call with
  | wait pid => exact (Option.some.inj first).trans (Option.some.inj second).symm
  | poll pid => exact (Option.some.inj first).trans (Option.some.inj second).symm
  | _ => cases first

/-- A call that hears one answer may hear any other. -/
theorem Request.exists_heard {call : Request} {answer : call.Answer}
    {heard : Except Errno WaitStatus} (hears : call.heard? answer = some heard)
    (other : Except Errno WaitStatus) : ∃ reply, call.heard? reply = some other := by
  cases call with
  | wait pid => exact ⟨other, rfl⟩
  | poll pid => exact ⟨other, rfl⟩
  | _ => cases hears

/-- Waits and polls are answered from a list, in its order; nothing else is answered. -/
def Dictates (call : Request) (answers : List (Except Errno WaitStatus)) (answer : call.Answer)
    (left : List (Except Errno WaitStatus)) : Prop :=
  ∃ heard, call.heard? answer = some heard ∧ answers = heard :: left

namespace Shell

variable {α β : Type} {value other : α} {answers more : List (Except Errno WaitStatus)}
variable {extra : Except Errno WaitStatus → Prop}

/-- With these answers the program comes to the value. -/
def Told (program : Shell α) (answers : List (Except Errno WaitStatus)) (value : α) : Prop :=
  ∃ trace left, Runs Dictates program answers trace value left

theorem told_done {given : α} : Told (.done given) answers value ↔ value = given := by
  constructor
  · rintro ⟨trace, left, run⟩
    cases run
    rfl
  · rintro rfl
    exact ⟨[], answers, .done value answers⟩

section Asking

variable {call : Request} {again : call.Answer → Bool} {next : call.Answer → Shell α}

theorem not_told_nil : ¬ Told (.ask call again next) [] value := by
  rintro ⟨trace, left, run⟩
  cases run with
  | again answered _ _ =>
      obtain ⟨heard, _, none⟩ := answered
      cases none
  | next answered _ _ =>
      obtain ⟨heard, _, none⟩ := answered
      cases none

theorem told_cons_iff {heard : Except Errno WaitStatus} :
    Told (.ask call again next) (heard :: answers) value ↔
      ∃ answer, call.heard? answer = some heard ∧
        if again answer = true then Told (.ask call again next) answers value
        else Told (next answer) answers value := by
  constructor
  · rintro ⟨trace, left, run⟩
    cases run with
    | again answered repeated later =>
        obtain ⟨_, hears, same⟩ := answered
        cases same
        exact ⟨_, hears, (if_pos repeated).mpr ⟨_, _, later⟩⟩
    | next answered usable later =>
        obtain ⟨_, hears, same⟩ := answered
        cases same
        exact ⟨_, hears, (if_neg (by simp [usable])).mpr ⟨_, _, later⟩⟩
  · rintro ⟨answer, hears, follows⟩
    split at follows
    · next repeated =>
        obtain ⟨trace, left, later⟩ := follows
        exact ⟨_, left, .again ⟨heard, hears, rfl⟩ repeated later⟩
    · next usable =>
        obtain ⟨trace, left, later⟩ := follows
        exact ⟨_, left, .next ⟨heard, hears, rfl⟩ (Bool.not_eq_true _ ▸ usable) later⟩

theorem Told.exists_heard (told : Told (.ask call again next) answers value)
    (heard : Except Errno WaitStatus) : ∃ reply, call.heard? reply = some heard := by
  cases answers with
  | nil => exact absurd told not_told_nil
  | cons first rest =>
      obtain ⟨answer, hears, _⟩ := told_cons_iff.1 told
      exact Request.exists_heard hears heard

end Asking

/-- The answers say what a program comes to. -/
theorem Told.unique {program : Shell α} (told : Told program answers value)
    (also : Told program answers other) : value = other := by
  induction answers generalizing program with
  | nil =>
      cases program with
      | done given => exact (told_done.1 told).trans (told_done.1 also).symm
      | ask call again next => exact absurd told not_told_nil
  | cons heard rest ih =>
      cases program with
      | done given => exact (told_done.1 told).trans (told_done.1 also).symm
      | ask call again next =>
          obtain ⟨answer, hears, follows⟩ := told_cons_iff.1 told
          obtain ⟨reply, alsoHears, alsoFollows⟩ := told_cons_iff.1 also
          obtain rfl := Request.heard?_injective hears alsoHears
          split at follows
          · next repeated => exact ih follows ((if_pos repeated).mp alsoFollows)
          · next usable => exact ih follows ((if_neg usable).mp alsoFollows)

/-! ## Answers that are overlooked -/

/-- Whenever a wait or a poll of the program hears something extra, it is made again. -/
def Overlooks (extra : Except Errno WaitStatus → Prop) : Shell α → Prop
  | .done _ => True
  | .ask call again next =>
      (∀ answer heard, call.heard? answer = some heard → extra heard → again answer = true) ∧
        ∀ answer, Overlooks extra (next answer)

theorem overlooks_pure (value : α) : Overlooks extra (pure value : Shell α) :=
  trivial

theorem Overlooks.bind {program : Shell α} {rest : α → Shell β} (first : Overlooks extra program)
    (second : ∀ value, Overlooks extra (rest value)) : Overlooks extra (program >>= rest) := by
  change Overlooks extra (Program.bind program rest)
  induction program with
  | done value => exact second value
  | ask call again next ih => exact ⟨first.1, fun answer => ih answer (first.2 answer)⟩

theorem Overlooks.imp {narrower : Except Errno WaitStatus → Prop} {program : Shell α}
    (overlooks : Overlooks extra program) (implied : ∀ heard, narrower heard → extra heard) :
    Overlooks narrower program := by
  induction program with
  | done value => trivial
  | ask call again next ih =>
      refine ⟨fun answer heard hears narrow => ?_, fun answer => ih answer (overlooks.2 answer)⟩
      exact overlooks.1 answer heard hears (implied heard narrow)

/-- What a program overlooks may be put in or left out. -/
theorem Overlooks.told_iff {program : Shell α} (overlooks : Overlooks extra program)
    (inserted : Inserted extra answers more) : Told program answers value ↔ Told program more value := by
  induction inserted generalizing program with
  | nil => rfl
  | same heard _ ih =>
      cases program with
      | done given => rw [told_done, told_done]
      | ask call again next =>
          rw [told_cons_iff, told_cons_iff]
          refine exists_congr fun answer => and_congr_right fun _ => ?_
          split
          · exact ih overlooks
          · exact ih (overlooks.2 answer)
  | @extra one other heard isExtra _ ih =>
      cases program with
      | done given => rw [told_done, told_done]
      | ask call again next =>
          rw [told_cons_iff]
          constructor
          · intro told
            obtain ⟨answer, hears⟩ := told.exists_heard heard
            have repeated : again answer = true := overlooks.1 answer heard hears isExtra
            exact ⟨answer, hears, (if_pos repeated).mpr ((ih overlooks).1 told)⟩
          · rintro ⟨answer, hears, follows⟩
            have repeated : again answer = true := overlooks.1 answer heard hears isExtra
            exact (ih overlooks).2 ((if_pos repeated).mp follows)

/-- A program comes to one value under given answers, and extra answers among them do not change it. -/
structure Unmoved (extra : Except Errno WaitStatus → Prop) (program : Shell α) : Prop where
  same : ∀ answers more, Inserted extra answers more → ∀ value,
    Told program answers value ↔ Told program more value
  single : ∀ answers value other, Told program answers value → Told program answers other →
    value = other

theorem Overlooks.unmoved {program : Shell α} (overlooks : Overlooks extra program) :
    Unmoved extra program :=
  ⟨fun _ _ inserted _ => overlooks.told_iff inserted, fun _ _ _ => Told.unique⟩

end Shell

open Shell

variable {answers : List (Except Errno WaitStatus)}

/-! ## Waits -/

/-- The answers that leave it open what became of a child. -/
inductive Job.Passing : Except Errno WaitStatus → Prop where
  | interrupted : Passing (.error .EINTR)
  | stopped (signal : Nat) : Passing (.ok (.stopped signal))
  | continued : Passing (.ok .continued)
  | stillAlive : Passing (.ok .stillAlive)

/-- The answers that settle a wait, and what it comes to. -/
inductive Job.Settling : Except Errno WaitStatus → Except Errno Int → Prop where
  | exited (code : Int) : Settling (.ok (.exited code)) (.ok code)
  | signaled (signal : Nat) (core : Bool) : Settling (.ok (.signaled signal core)) (.ok (128 + signal))
  | failed {errno : Errno} : errno ≠ .EINTR → Settling (.error errno) (.error errno)

namespace Job

theorem undecided_iff_passing {heard : Except Errno WaitStatus} :
    undecided heard = true ↔ Passing heard := by
  constructor
  · intro unruled
    rcases heard with errno | status
    · rw [undecided_error_iff.1 unruled]
      exact .interrupted
    · cases status with
      | stopped signal => exact .stopped signal
      | continued => exact .continued
      | stillAlive => exact .stillAlive
      | _ => cases unruled
  · intro passing
    cases passing <;> rfl

theorem verdict_eq_some_iff {heard : Except Errno WaitStatus} {result : Except Errno Int} :
    verdict heard = some result ↔ Settling heard result := by
  constructor
  · intro settled
    rcases heard with errno | status
    · cases errno <;> cases settled <;> exact .failed nofun
    · cases status with
      | exited code =>
          cases settled
          exact .exited code
      | signaled signal core =>
          cases settled
          exact .signaled signal core
      | _ => cases settled
  · intro settling
    cases settling with
    | exited code => rfl
    | signaled signal core => rfl
    | @failed errno other => cases errno <;> first | rfl | exact absurd rfl other

theorem await_overlooks (pid : Pid) : Overlooks Passing (await pid) := by
  unfold await
  refine .bind ⟨?_, fun _ => trivial⟩ fun _ => overlooks_pure _
  rintro answer heard ⟨⟩ passing
  exact undecided_iff_passing.2 passing

/-- A wait is settled by the first answer that does not leave it open what became of the child. -/
theorem told_await_iff {pid : Pid} {result : Except Errno Int} :
    Told (await pid) answers result ↔
      ∃ earlier last later, answers = earlier ++ last :: later ∧ (∀ one ∈ earlier, Passing one) ∧
        Settling last result := by
  rw [await_eq]
  induction answers with
  | nil =>
      constructor
      · exact fun told => absurd told not_told_nil
      · rintro ⟨earlier, last, later, split, _⟩
        cases earlier <;> cases split
  | cons heard rest ih =>
      rw [told_cons_iff]
      constructor
      · rintro ⟨answer, ⟨⟩, follows⟩
        split at follows
        · next unruled =>
            obtain ⟨earlier, last, later, rfl, passing, settling⟩ := ih.1 follows
            have first : Passing heard := undecided_iff_passing.1 unruled
            exact ⟨heard :: earlier, last, later, rfl, List.forall_mem_cons.2 ⟨first, passing⟩, settling⟩
        · next decided =>
            have ruled : verdict heard ≠ none := by simpa [undecided] using decided
            obtain ⟨found, settled⟩ := Option.ne_none_iff_exists'.1 ruled
            have comes : result = found := by
              rw [told_done.1 follows, settled]
              rfl
            refine ⟨[], heard, rest, rfl, List.forall_mem_nil _, ?_⟩
            rw [comes]
            exact verdict_eq_some_iff.1 settled
      · rintro ⟨earlier, last, later, split, passing, settling⟩
        refine ⟨heard, rfl, ?_⟩
        cases earlier with
        | nil =>
            cases split
            have settled : verdict heard = some result := verdict_eq_some_iff.2 settling
            rw [if_neg (by simp [undecided, settled]), told_done, settled]
            rfl
        | cons first earlier =>
            cases split
            obtain ⟨here, behind⟩ := List.forall_mem_cons.1 passing
            rw [if_pos (undecided_iff_passing.2 here)]
            exact ih.2 ⟨earlier, last, later, rfl, behind, settling⟩

end Job

/-! ## Polls -/

namespace Registry

theorem poll_overlooks (pid : Pid) :
    Overlooks (· = .error .EINTR) (Shell.repeatedly (.poll pid) interrupted) := by
  refine ⟨?_, fun _ => trivial⟩
  rintro answer heard ⟨⟩ isInterruption
  exact interrupted_iff.2 isInterruption

theorem pollFrom_overlooks (rest : Registry) :
    ∀ kept : Registry, Overlooks (· = .error .EINTR) (pollFrom kept rest) := by
  induction rest with
  | nil => exact fun kept => overlooks_pure _
  | cons job rest ih =>
      intro kept
      unfold pollFrom
      refine .bind (poll_overlooks job.pid) fun answer => ?_
      split
      · split
        · exact overlooks_pure _
        · exact ih _
      · exact ih _

theorem drainWithin_overlooks (limit : Nat) :
    ∀ registry : Registry, Overlooks (· = .error .EINTR) (drainWithin limit registry) := by
  induction limit with
  | zero => exact fun registry => overlooks_pure _
  | succ limit ih =>
      intro registry
      unfold drainWithin
      refine .bind (pollFrom_overlooks registry []) fun polled => ?_
      split
      · exact .bind (ih _) fun later => overlooks_pure _
      · exact overlooks_pure _

variable {registry : Registry}

theorem answered_findings (findings : List Finding) (later : List (Except Errno WaitStatus)) :
    Answered Dictates (findings.map Finding.answer ++ later) (findings.map Finding.event) later := by
  induction findings with
  | nil => exact .nil later
  | cons finding findings ih => exact .cons ⟨finding.answer, rfl, rfl⟩ ih

/-- Answers that are no interruptions are enough for a poll when there is one for each job. -/
theorem exists_poll (usable : ∀ answer ∈ answers, interrupted answer = false)
    (enough : registry.length ≤ answers.length) :
    ∃ trace poll rest later, Runs Dictates registry.pollOnce answers trace (poll, rest) later ∧
      ∃ read, answers = read ++ later ∧ read.length ≤ registry.length := by
  obtain ⟨findings, poll, rest, ⟨later, rfl⟩, round⟩ := exists_reviewed registry [] answers enough
  have early : ∀ finding ∈ findings, interrupted finding.answer = false := by
    intro finding mem
    exact usable _ (List.mem_append_left later (List.mem_map_of_mem mem))
  have run := runs_of_reviewed round early (answered_findings findings later)
  have few : findings.length ≤ registry.length := by simpa using round.prefix_jobs.length_le
  exact ⟨_, poll, rest, later, run, findings.map Finding.answer, rfl, by simpa using few⟩

theorem exists_told_drain (usable : ∀ answer ∈ answers, interrupted answer = false)
    (enough : (registry.length + 1).choose 2 ≤ answers.length) :
    ∃ value, Told registry.drain answers value := by
  -- The polls that find a job shorten the registry, so the induction is on its length.
  induction size : registry.length using Nat.strong_induction_on generalizing registry answers with
  | _ size ih =>
      rw [choose_two_succ] at enough
      have once : registry.length ≤ answers.length := Nat.le_trans (Nat.le_add_right _ _) enough
      obtain ⟨early, poll, rest, later, polled, read, rfl, few⟩ := exists_poll usable once
      rw [List.length_append] at enough
      have ended (nothing : Collected.ofPoll poll = []) :
          ∃ value, Told registry.drain (read ++ later) value :=
        ⟨([], rest), _, _, (Rounds.last polled nothing).runs⟩
      cases poll with
      | terminated pid code =>
          have fewer : rest.length < registry.length :=
            (pollOnce_yields registry).runs polled pid code rfl
          have smaller : (rest.length + 1).choose 2 ≤ registry.length.choose 2 :=
            Nat.choose_le_choose 2 fewer
          have others : ∀ answer ∈ later, interrupted answer = false :=
            fun answer mem => usable answer (List.mem_append_right read mem)
          obtain ⟨⟨collected, left⟩, late, unread, run⟩ :=
            ih rest.length (size ▸ fewer) others (by omega) rfl
          refine ⟨(⟨pid, code⟩ :: collected, left), early ++ late, unread, ?_⟩
          rw [drain_eq]
          exact polled.bind (run.bind_done rfl)
      | noneReady => exact ended rfl
      | noChildren => exact ended rfl

/-! ## What interruptions do -/

/-- The answers without the interruptions. -/
def withoutInterruptions (answers : List (Except Errno WaitStatus)) :
    List (Except Errno WaitStatus) :=
  answers.filter fun answer => !interrupted answer

theorem inserted_withoutInterruptions (answers : List (Except Errno WaitStatus)) :
    Inserted (· = .error .EINTR) (withoutInterruptions answers) answers :=
  inserted_filter (fun _ => interrupted_iff.1) answers

theorem withoutInterruptions_usable : ∀ answer ∈ withoutInterruptions answers, interrupted answer = false := by
  intro answer mem
  simpa using (List.mem_filter.1 mem).2

/-- Which answers a wait, a poll and a drain overlook, and when they come to a value. -/
structure Undeterred (registry : Registry) (pid : Pid) : Prop where
  wait : Unmoved (· = .error .EINTR) (Job.await pid)
  poll : Unmoved (· = .error .EINTR) registry.pollOnce
  drain : Unmoved (· = .error .EINTR) registry.drain
  /-- A wait also overlooks statuses that are not final, between interruptions or not. -/
  passing : Unmoved Job.Passing (Job.await pid)
  settled : ∀ answers result, Told (Job.await pid) answers result ↔
    ∃ earlier last later, answers = earlier ++ last :: later ∧ (∀ one ∈ earlier, Job.Passing one) ∧
      Job.Settling last result
  polled : ∀ answers, registry.length ≤ (withoutInterruptions answers).length →
    ∃ value, Told registry.pollOnce answers value
  drained : ∀ answers, registry.length * (registry.length + 1) / 2 ≤ (withoutInterruptions answers).length →
    ∃ value, Told registry.drain answers value

/-- Interruptions, however many and wherever they come, change neither what a wait, a poll or a drain
comes to nor the jobs that are left; statuses that are not final do not change what a wait comes to. -/
theorem interruptions_ignored (registry : Registry) (pid : Pid) : Undeterred registry pid := by
  have waits : Overlooks Job.Passing (Job.await pid) := Job.await_overlooks pid
  have interrupts : Overlooks (· = .error .EINTR) (Job.await pid) :=
    waits.imp fun _ same => same ▸ .interrupted
  have polls : Overlooks (· = .error .EINTR) registry.pollOnce := pollFrom_overlooks registry []
  have drains : Overlooks (· = .error .EINTR) registry.drain := drainWithin_overlooks _ registry
  refine ⟨interrupts.unmoved, polls.unmoved, drains.unmoved, waits.unmoved,
    fun answers result => Job.told_await_iff, fun answers enough => ?_, fun answers enough => ?_⟩
  · obtain ⟨trace, poll, rest, later, run, _⟩ := exists_poll withoutInterruptions_usable enough
    exact ⟨(poll, rest), (polls.told_iff (inserted_withoutInterruptions answers)).1 ⟨trace, later, run⟩⟩
  · rw [Nat.mul_comm] at enough
    have triangle : (registry.length + 1).choose 2 ≤ (withoutInterruptions answers).length :=
      (Nat.choose_two_right (registry.length + 1)).trans_le enough
    obtain ⟨value, told⟩ := exists_told_drain withoutInterruptions_usable triangle
    exact ⟨value, (drains.told_iff (inserted_withoutInterruptions answers)).1 told⟩

/-- Of two jobs one is gone and the other cannot be polled any more; every poll is interrupted. -/
theorem interruptions_ignored_everywhere :
    let registry : Registry := [⟨1, true⟩, ⟨2, true⟩]
    let answers : List (Except Errno WaitStatus) :=
      [.ok .stillAlive, .ok (.signaled 9 false), .error .ECHILD]
    let more : List (Except Errno WaitStatus) :=
      [.error .EINTR, .ok .stillAlive, .error .EINTR, .error .EINTR, .ok (.signaled 9 false),
        .error .EINTR, .error .ECHILD, .error .EINTR]
    Inserted (· = .error .EINTR) answers more ∧ Told registry.drain answers ([⟨2, 137⟩], []) ∧
      Told registry.drain more ([⟨2, 137⟩], []) ∧
        ∀ value, Told registry.drain more value → value = ([⟨2, 137⟩], []) := by
  intro registry answers more
  have inserted : Inserted (· = .error .EINTR) answers more :=
    .extra rfl (.same _ (.extra rfl (.extra rfl (.same _ (.extra rfl (.same _ (.extra rfl .nil)))))))
  have drained : Told registry.drain answers ([⟨2, 137⟩], []) := by
    refine ⟨[⟨.poll 1, .ok .stillAlive⟩, ⟨.poll 2, .ok (.signaled 9 false)⟩,
      ⟨.poll 1, .error .ECHILD⟩], [], ?_⟩
    exact .next ⟨_, rfl, rfl⟩ rfl (.next ⟨_, rfl, rfl⟩ rfl (.next ⟨_, rfl, rfl⟩ rfl (.done _ _)))
  have unmoved := (interruptions_ignored registry 1).drain
  have told := (unmoved.same answers more inserted _).1 drained
  exact ⟨inserted, drained, told, fun value also => unmoved.single more value _ also told⟩

end Registry

end LineShell
