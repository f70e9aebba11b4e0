/-
# LineShell.Proofs.Bounding -- a drain comes to an end, whatever it is told

A poll of the registry goes through the jobs once, so it makes at most one wait for each of
them.  A drain polls again after every poll that has found a job, from the first job on,
and nothing is known about the answers: they may contradict each other from one poll to
the next.  What makes the drain end is that a poll which finds a job has removed it.

`Registry.Rounds` is the drain as its polls, one after the other, and `drain_iff_rounds`
says that it is nothing else.  The bounds are read off this relation: each round has one
job less to wait for, which makes the number of waits triangular.

A bound on finished runs is one on runs that stop anywhere, because any point can be
followed to an end (`Program.Answerable.filter_length_le`).  Conversely, where all points
are bounded, every point comes to an end as soon as calls are answered
(`Program.Reaches.exists_end`).  So `Registry.drain_ends` bounds a drain while it is going
on and says that it does not go on forever.
-/
import LineShell.Proofs.Reviewing
import Mathlib.Data.Nat.Choose.Basic

namespace LineShell

set_option autoImplicit false

open Program

/-! ## Programs with a bound -/

namespace Program

variable {Call : Type} {Answer : Call → Type} {α σ : Type} {allowed : Call → Prop} {bound : Nat}
variable {step : (call : Call) → σ → Answer call → σ → Prop} {state : σ}
variable {program : Program Call Answer α}

/-- What bounds the finished runs bounds the others. -/
theorem Answerable.filter_length_le {counts : Event Call Answer → Bool}
    {left : Program Call Answer α} {final : σ} {trace : List (Event Call Answer)}
    (answerable : Answerable program)
    (bounded : ∀ trace value, Runs Freely program () trace value () →
      (trace.filter counts).length ≤ bound)
    (reached : Reaches step program state trace left final) :
    (trace.filter counts).length ≤ bound := by
  obtain ⟨onwards, runs⟩ := answerable.extends reached
  obtain ⟨late, value, run⟩ := onwards.exists_run
  have whole := bounded _ _ (runs late value run)
  rw [List.filter_append, List.length_append] at whole
  omega

/-- When there is a bound on what can be asked and every call is answered, a program comes to its
end from every point. -/
theorem Reaches.exists_end (asks : Asks allowed program)
    (answers : ∀ call before, allowed call → ∃ answer after, step call before answer after)
    (bounded : ∀ trace left final, Reaches step program state trace left final → trace.length ≤ bound)
    {trace : List (Event Call Answer)} {left : Program Call Answer α} {final : σ}
    (reached : Reaches step program state trace left final) :
    ∃ late value last, Runs step left final late value last := by
  -- The induction is on the number of calls that may still be asked.
  have onwards (missing : Nat) : ∀ {trace left final}, Reaches step program state trace left final →
      bound < trace.length + missing → ∃ late value last, Runs step left final late value last := by
    induction missing with
    | zero =>
        intro trace left final reached enough
        exact absurd (bounded trace left final reached) (by omega)
    | succ missing ih =>
        intro trace left final reached enough
        cases left with
        | done value => exact ⟨[], value, final, .done value final⟩
        | ask call again next =>
            obtain ⟨answer, after, answered⟩ := answers call final (asks.reaches reached).1.1
            have longer : bound < (trace ++ [(⟨call, answer⟩ : Event Call Answer)]).length + missing := by
              rw [List.length_append, List.length_singleton]
              omega
            cases repeated : again answer with
            | true =>
                have further := reached.trans (.again answered repeated (.here _ after))
                obtain ⟨late, value, last, run⟩ := ih further longer
                exact ⟨_, value, last, .again answered repeated run⟩
            | false =>
                have further := reached.trans (.next answered repeated (.here _ after))
                obtain ⟨late, value, last, run⟩ := ih further longer
                exact ⟨_, value, last, .next answered repeated run⟩
  exact onwards (bound + 1) reached (by omega)

end Program

namespace Registry

/-! ## Polls can be answered -/

theorem pollFrom_answerable (rest : Registry) :
    ∀ kept : Registry, Answerable (pollFrom kept rest) := by
  induction rest with
  | nil => exact fun kept => answerable_pure _
  | cons job rest ih =>
      intro kept
      have usable : Answerable (Shell.repeatedly (.poll job.pid) interrupted) :=
        ⟨⟨.error .ECHILD, rfl⟩, fun _ => trivial⟩
      unfold pollFrom
      refine usable.bind fun answer => ?_
      split
      · split
        · exact answerable_pure _
        · exact ih _
      · exact ih _

theorem drainWithin_answerable (limit : Nat) :
    ∀ registry : Registry, Answerable (drainWithin limit registry) := by
  induction limit with
  | zero => exact fun registry => answerable_pure _
  | succ limit ih =>
      intro registry
      unfold drainWithin
      refine .bind (pollFrom_answerable registry []) fun polled => ?_
      split
      · exact Answerable.bind (ih _) fun later => answerable_pure _
      · exact answerable_pure _

section

variable {σ : Type} {step : (call : Request) → σ → call.Answer → σ → Prop} {state final : σ}
variable {registry left : Registry} {trace : Shell.Trace} {rounds : List Shell.Trace} {poll : Poll}
variable {collected : List Collected}

/-! ## Rounds -/

theorem poll_waits_le (run : Runs step registry.pollOnce state trace (poll, left) final) :
    (uninterrupted trace).length ≤ registry.length := by
  obtain ⟨findings, calls, round⟩ := reviewed_of_pollFrom registry [] run
  rw [calls, List.length_map, ← List.length_map Finding.job]
  exact round.prefix_jobs.length_le

/-- The calls of a drain, poll by poll.  Every poll but the last one finds a job. -/
inductive Rounds (step : (call : Request) → σ → call.Answer → σ → Prop) :
    Registry → σ → List Shell.Trace → List Collected → Registry → σ → Prop where
  | last {registry left : Registry} {state final : σ} {trace : Shell.Trace} {poll : Poll} :
      Runs step registry.pollOnce state trace (poll, left) final → Collected.ofPoll poll = [] →
      Rounds step registry state [trace] [] left final
  | found {registry rest left : Registry} {state middle final : σ} {trace : Shell.Trace}
      {rounds : List Shell.Trace} {pid : Pid} {code : Int} {collected : List Collected} :
      Runs step registry.pollOnce state trace (.terminated pid code, rest) middle →
      Rounds step rest middle rounds collected left final →
      Rounds step registry state (trace :: rounds) (⟨pid, code⟩ :: collected) left final

theorem Rounds.runs (drains : Rounds step registry state rounds collected left final) :
    Runs step registry.drain state rounds.flatten (collected, left) final := by
  induction drains with
  | @last registry left state final trace poll polled nothing =>
      rw [drain_eq, List.flatten_singleton]
      refine polled.bind_done ?_
      cases poll with
      | terminated pid code => cases nothing
      | noneReady => rfl
      | noChildren => rfl
  | found polled _ later =>
      rw [drain_eq, List.flatten_cons]
      exact polled.bind (later.bind_done rfl)

/-- A drain is its rounds. -/
theorem drain_iff_rounds : Runs step registry.drain state trace (collected, left) final ↔
    ∃ rounds, trace = rounds.flatten ∧ Rounds step registry state rounds collected left final := by
  constructor
  · refine drain_induction (motive := fun registry state trace collected left final =>
      ∃ rounds, trace = rounds.flatten ∧ Rounds step registry state rounds collected left final) ?_ ?_
    · intro registry left state trace poll final polled nothing
      exact ⟨[trace], List.flatten_singleton.symm, .last polled nothing⟩
    · rintro registry rest left state middle final early _ pid code collected polled
        ⟨rounds, rfl, later⟩
      exact ⟨early :: rounds, List.flatten_cons.symm, .found polled later⟩
  · rintro ⟨rounds, rfl, drains⟩
    exact drains.runs

/-- There is one round for each job that was collected, and the last one. -/
theorem Rounds.length_eq (drains : Rounds step registry state rounds collected left final) :
    rounds.length = collected.length + 1 := by
  induction drains with
  | last _ _ => rfl
  | found _ _ ih => rw [List.length_cons, List.length_cons, ih]

/-- No job is collected and left, and none is collected twice. -/
theorem Rounds.collected_left_le (drains : Rounds step registry state rounds collected left final) :
    collected.length + left.length ≤ registry.length := by
  induction drains with
  | last polled nothing =>
      obtain ⟨findings, _, round⟩ := reviewed_of_pollFrom _ [] polled
      simpa using round.sublist.length_le
  | found polled _ ih =>
      have fewer := (pollOnce_yields _).runs polled _ _ rfl
      simp only [List.length_cons] at fewer ⊢
      omega

/-- A round waits for each job once, and the rounds after it have one job less. -/
theorem choose_two_succ (jobs : Nat) : (jobs + 1).choose 2 = jobs + jobs.choose 2 := by
  rw [Nat.choose_succ_succ' jobs 1, Nat.choose_one_right]

theorem Rounds.waits_le (drains : Rounds step registry state rounds collected left final) :
    (uninterrupted rounds.flatten).length ≤ (registry.length + 1).choose 2 := by
  induction drains with
  | @last registry left state final trace poll polled _ =>
      have here := poll_waits_le polled
      rw [List.flatten_singleton, choose_two_succ]
      omega
  | @found registry rest left state middle final trace rounds pid code collected polled _ ih =>
      have here := poll_waits_le polled
      have fewer : rest.length + 1 ≤ registry.length := (pollOnce_yields registry).runs polled _ _ rfl
      have later : (rest.length + 1).choose 2 ≤ registry.length.choose 2 :=
        Nat.choose_le_choose 2 fewer
      rw [List.flatten_cons, uninterrupted_append, List.length_append, choose_two_succ]
      omega

/-! ## Every drain -/

/-- No poll is ever interrupted. -/
def Steady (step : (call : Request) → σ → call.Answer → σ → Prop) : Prop :=
  ∀ pid before answer after, step (.poll pid) before answer after → interrupted answer = false

theorem uninterrupted_eq_self (steady : Steady step)
    (answered : ∀ event ∈ trace, ∃ before after, step event.call before event.answer after) :
    uninterrupted trace = trace := by
  refine List.filter_eq_self.2 fun event mem => ?_
  obtain ⟨before, after, here⟩ := answered event mem
  obtain ⟨call, answer⟩ := event
  cases call with
  | poll pid =>
      have usable : wasInterrupted ⟨.poll pid, answer⟩ = false := steady pid before answer after here
      rw [usable]
      rfl
  | _ => rfl

/-- A drain of a registry is bounded while it goes on, and it ends. -/
structure Ends (step : (call : Request) → σ → call.Answer → σ → Prop) (registry : Registry) : Prop where
  /-- A poll makes no other calls, and one for each job at most. -/
  poll : ∀ state trace left final, Reaches step registry.pollOnce state trace left final →
    (∀ event ∈ trace, event.call.IsPoll) ∧ trace.length ≤ registry.length
  waits : ∀ state trace left final, Reaches step registry.drain state trace left final →
    (∀ event ∈ trace, event.call.IsPoll) ∧ trace.length ≤ registry.length * (registry.length + 1) / 2
  results : ∀ state trace collected left final,
    Runs step registry.drain state trace (collected, left) final →
      collected.length ≤ registry.length ∧ left.length + collected.length ≤ registry.length ∧
        ∃ rounds, trace = rounds.flatten ∧ rounds.length ≤ registry.length + 1 ∧
          Rounds step registry state rounds collected left final
  /-- As long as polls are answered at all, the drain comes to its end from every point. -/
  ends : (∀ pid before, ∃ answer after, step (.poll pid) before answer after) →
    ∀ state trace left final, Reaches step registry.drain state trace left final →
      ∃ late value last, Runs step left final late value last

/-- Whatever statuses and errors the polls are answered with, a drain of a registry makes one poll
more than there are jobs at most, and a wait for each pair of a job and one that is not before it. -/
theorem drain_ends (steady : Steady step) (registry : Registry) : Ends step registry := by
  have waits (state : σ) (trace : Shell.Trace) (left : Shell (List Collected × Registry)) (final : σ)
      (reached : Reaches step registry.drain state trace left final) :
      trace.length ≤ registry.length * (registry.length + 1) / 2 := by
    rw [← uninterrupted_eq_self steady reached.answered, Nat.mul_comm]
    refine (drainWithin_answerable _ registry).filter_length_le ?_ reached
    rintro trace ⟨collected, left⟩ run
    obtain ⟨rounds, rfl, drains⟩ := drain_iff_rounds.1 run
    exact drains.waits_le.trans_eq (Nat.choose_two_right _)
  refine ⟨fun state trace left final reached => ⟨?_, ?_⟩, fun state trace left final reached => ⟨?_, ?_⟩,
    fun state trace collected left final run => ?_, fun answers state trace left final reached => ?_⟩
  · exact ((pollFrom_asks registry []).reaches reached).2
  · rw [← uninterrupted_eq_self steady reached.answered]
    refine (pollFrom_answerable registry []).filter_length_le ?_ reached
    rintro trace ⟨poll, left⟩ run
    exact poll_waits_le run
  · exact ((drain_asks registry).reaches reached).2
  · exact waits state trace left final reached
  · obtain ⟨rounds, rfl, drains⟩ := drain_iff_rounds.1 run
    have total := drains.collected_left_le
    have count := drains.length_eq
    exact ⟨by omega, by omega, rounds, rfl, by omega, drains⟩
  · refine reached.exists_end (drain_asks registry) (fun call before allowed => ?_) (waits state)
    cases call with
    | poll pid => exact answers pid before
    | _ => exact absurd allowed not_false

end

/-- The polls are answered with these statuses in their order, whichever child is asked for. -/
def Recites (call : Request) (script : List WaitStatus) (answer : call.Answer)
    (rest : List WaitStatus) : Prop :=
  match call, answer with
  | .poll _, answer => answer = .ok (script.headD .stillAlive) ∧ rest = script.tail
  | _, _ => False

/-- One child is reported three times, with different codes, and each time by the last entry: no
drain of three jobs takes longer. -/
theorem drain_ends_worst :
    let registry : Registry := [⟨1, true⟩, ⟨1, true⟩, ⟨1, true⟩]
    let script : List WaitStatus :=
      [.stillAlive, .stopped 19, .exited 5, .continued, .exited 6, .signaled 9 false]
    Steady Recites ∧ (∀ pid before, ∃ answer after, Recites (.poll pid) before answer after) ∧
      Ends Recites registry ∧ ∃ trace, trace.length = 3 * (3 + 1) / 2 ∧
        Runs Recites registry.drain script trace ([⟨1, 5⟩, ⟨1, 6⟩, ⟨1, 137⟩], []) [] := by
  intro registry script
  have steady : Steady Recites := by
    rintro pid before answer after ⟨rfl, _⟩
    rfl
  have run : Runs Recites registry.drain script
      [⟨.poll 1, .ok .stillAlive⟩, ⟨.poll 1, .ok (.stopped 19)⟩, ⟨.poll 1, .ok (.exited 5)⟩,
        ⟨.poll 1, .ok .continued⟩, ⟨.poll 1, .ok (.exited 6)⟩,
        ⟨.poll 1, .ok (.signaled 9 false)⟩]
      ([⟨1, 5⟩, ⟨1, 6⟩, ⟨1, 137⟩], []) [] := by
    refine .next ⟨rfl, rfl⟩ rfl (.next ⟨rfl, rfl⟩ rfl (.next ⟨rfl, rfl⟩ rfl ?_))
    exact .next ⟨rfl, rfl⟩ rfl (.next ⟨rfl, rfl⟩ rfl (.next ⟨rfl, rfl⟩ rfl (.done _ _)))
  exact ⟨steady, fun pid before => ⟨_, _, rfl, rfl⟩, drain_ends steady registry, _, rfl, run⟩

end Registry

end LineShell
