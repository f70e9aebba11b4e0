/-
# LineShell.Proofs.Tracing -- what holds at every point of a run

A run of a program that was put together is put together from runs of its parts
(`Runs.of_bind`, `Reaches.of_bind`), so a run is taken apart in the order in which
the program was written.

Two predicates say what a program does on the way, not only where it ends.

* `Program.Asks` is about the calls alone: whatever the answers are, only allowed
  calls are asked.  It is read off the program's tree.
* `Program.Heeds` is about calls and states: at every point that a run reaches, the
  call that comes next is allowed in that state, or the program is done and the
  value is right.  It is defined by the points themselves, so nothing is left to be
  shown about its meaning; `Heeds.bind`, `heeds_request` and `Asks.heeds` establish
  it along the program.

`Recorded` adds the calls so far to the state.  With it a call can be allowed
because of what was answered earlier in the same run.

A run is a run of the program under any answers (`Freely`) together with answers that
the system gives (`Answered`), so what a program can do may be told without a system
(`runs_iff_freely`), and also what it comes to when its answers are agreed on before
(`Gives`).  When all its calls can be answered (`Answerable`), a run that has
come to a call is the beginning of one that comes to its end.
-/
import LineShell.Proofs.Assurance

namespace LineShell

set_option autoImplicit false

namespace Program

variable {Call : Type} {Answer : Call → Type} {α β σ : Type}
variable {step : (call : Call) → σ → Answer call → σ → Prop}

/-! ## Taking runs apart -/

theorem Runs.of_pure {given value : α} {state final : σ} {trace : List (Event Call Answer)}
    (run : Runs step (pure given : Program Call Answer α) state trace value final) :
    trace = [] ∧ value = given ∧ final = state := by
  cases run
  exact ⟨rfl, rfl, rfl⟩

theorem Runs.of_request {call : Call} {state final : σ} {trace : List (Event Call Answer)}
    {answer : Answer call} (run : Runs step (request call) state trace answer final) :
    trace = [⟨call, answer⟩] ∧ step call state answer final := by
  cases run with
  | again _ repeated _ => simp at repeated
  | next answered _ later =>
      cases later
      exact ⟨rfl, answered⟩

/-- A call that is asked once and answered has run. -/
theorem Runs.request {call : Call} {state final : σ} {answer : Answer call}
    (answered : step call state answer final) :
    Runs step (request call) state [⟨call, answer⟩] answer final :=
  .next answered rfl (.done answer final)

/-- A call that is repeated gets answers that make it repeated, and then one that does not. -/
theorem Runs.of_insist {call : Call} {again : Answer call → Bool} {state final : σ}
    {trace : List (Event Call Answer)} {answer : Answer call}
    (run : Runs step (insist call again) state trace answer final) :
    ∃ earlier : List (Answer call), trace = earlier.map (Event.mk call) ++ [⟨call, answer⟩] ∧
      again answer = false ∧ ∀ reply ∈ earlier, again reply = true := by
  generalize asked : insist call again = program at run
  induction run with
  | done value state => cases asked
  | again _ repeated _ ih =>
      cases asked
      obtain ⟨earlier, rfl, last, before⟩ := ih rfl
      exact ⟨_ :: earlier, rfl, last, List.forall_mem_cons.2 ⟨repeated, before⟩⟩
  | next _ usable later _ =>
      cases asked
      cases later
      exact ⟨[], rfl, usable, nofun⟩

/-- A program that has reached its end has run. -/
theorem Reaches.runs {program : Program Call Answer α} {state final : σ}
    {trace : List (Event Call Answer)} {value : α}
    (run : Reaches step program state trace (.done value) final) :
    Runs step program state trace value final := by
  generalize ended : Program.done value = left at run
  induction run with
  | here program state =>
      rw [← ended]
      exact .done value state
  | again answered repeated _ ih => exact .again answered repeated (ih ended)
  | next answered usable _ ih => exact .next answered usable (ih ended)

/-- A point of a program that was put together lies in its first part or in what follows. -/
theorem Reaches.of_bind {program : Program Call Answer α} {rest : α → Program Call Answer β}
    {state final : σ} {trace : List (Event Call Answer)} {left : Program Call Answer β}
    (run : Reaches step (program >>= rest) state trace left final) :
    (∃ inner, left = inner.bind rest ∧ Reaches step program state trace inner final) ∨
      ∃ early late middle given, trace = early ++ late ∧
        Runs step program state early given middle ∧
          Reaches step (rest given) middle late left final := by
  change Reaches step (program.bind rest) state trace left final at run
  generalize joined : program.bind rest = whole at run
  -- A repeated call leaves the program as it is, so the induction is on the run.
  induction run generalizing program with
  | here whole state => exact .inl ⟨program, joined.symm, .here program state⟩
  | again answered repeated later ih =>
      cases program with
      | done given =>
          have last := Reaches.again answered repeated later
          rw [← show rest given = _ from joined] at last
          exact .inr ⟨[], _, _, given, rfl, .done given _, last⟩
      | ask call again next =>
          cases joined
          have split := @ih (.ask _ _ next) rfl
          rcases split with ⟨inner, rfl, first⟩ | ⟨early, late, middle, given, rfl, first, second⟩
          · exact .inl ⟨inner, rfl, .again answered repeated first⟩
          · exact .inr ⟨_ :: early, late, middle, given, rfl, .again answered repeated first, second⟩
  | next answered usable later ih =>
      cases program with
      | done given =>
          have last := Reaches.next answered usable later
          rw [← show rest given = _ from joined] at last
          exact .inr ⟨[], _, _, given, rfl, .done given _, last⟩
      | ask call again next =>
          cases joined
          rcases ih rfl with ⟨inner, rfl, first⟩ | ⟨early, late, middle, given, rfl, first, second⟩
          · exact .inl ⟨inner, rfl, .next answered usable first⟩
          · exact .inr ⟨_ :: early, late, middle, given, rfl, .next answered usable first, second⟩

theorem Runs.of_bind {program : Program Call Answer α} {rest : α → Program Call Answer β}
    {state final : σ} {trace : List (Event Call Answer)} {value : β}
    (run : Runs step (program >>= rest) state trace value final) :
    ∃ early late middle given, trace = early ++ late ∧
      Runs step program state early given middle ∧ Runs step (rest given) middle late value final := by
  rcases run.reaches.of_bind with
    ⟨inner, joined, first⟩ | ⟨early, late, middle, given, split, first, second⟩
  · cases inner with
    | done given =>
        have last : Runs step (rest given) final [] value final := by
          rw [show rest given = .done value from joined.symm]
          exact .done value final
        exact ⟨trace, [], final, given, (List.append_nil trace).symm, first.runs, last⟩
    | ask call again next => cases joined
  · exact ⟨early, late, middle, given, split, first, second.runs⟩

/-- What is reached from a point of a run is a point of the run. -/
theorem Reaches.trans {program middle left : Program Call Answer α} {state between final : σ}
    {early late : List (Event Call Answer)}
    (first : Reaches step program state early middle between)
    (second : Reaches step middle between late left final) :
    Reaches step program state (early ++ late) left final := by
  induction first with
  | here program state => exact second
  | again answered repeated _ ih => exact .again answered repeated (ih second)
  | next answered usable _ ih => exact .next answered usable (ih second)

/-- A program that was reached goes on from there. -/
theorem Runs.bind_reaches {program : Program Call Answer α} {rest : α → Program Call Answer β}
    {state middle final : σ} {early late : List (Event Call Answer)} {given : α}
    {left : Program Call Answer β} (first : Runs step program state early given middle)
    (second : Reaches step (rest given) middle late left final) :
    Reaches step (program >>= rest) state (early ++ late) left final := by
  induction first with
  | done value state => exact second
  | again answered repeated _ ih => exact .again answered repeated (ih second)
  | next answered usable _ ih => exact .next answered usable (ih second)

/-- Runs one after the other are a run of the programs one after the other. -/
theorem Runs.bind {program : Program Call Answer α} {rest : α → Program Call Answer β}
    {state middle final : σ} {early late : List (Event Call Answer)} {given : α} {value : β}
    (first : Runs step program state early given middle)
    (second : Runs step (rest given) middle late value final) :
    Runs step (program >>= rest) state (early ++ late) value final :=
  (first.bind_reaches second.reaches).runs

theorem runs_pure {given value : α} {state final : σ} {trace : List (Event Call Answer)} :
    Runs step (pure given : Program Call Answer α) state trace value final ↔
      trace = [] ∧ value = given ∧ final = state := by
  constructor
  · exact Runs.of_pure
  · rintro ⟨rfl, rfl, rfl⟩
    exact .done _ _

theorem runs_bind {program : Program Call Answer α} {rest : α → Program Call Answer β}
    {state final : σ} {trace : List (Event Call Answer)} {value : β} :
    Runs step (program >>= rest) state trace value final ↔
      ∃ early late middle given, trace = early ++ late ∧
        Runs step program state early given middle ∧
          Runs step (rest given) middle late value final := by
  constructor
  · exact Runs.of_bind
  · rintro ⟨early, late, middle, given, rfl, first, second⟩
    exact first.bind second

/-- A call is asked first, whatever its answer is. -/
theorem runs_request_bind {call : Call} {rest : Answer call → Program Call Answer β}
    {state final : σ} {trace : List (Event Call Answer)} {value : β} :
    Runs step (request call >>= rest) state trace value final ↔
      ∃ answer later middle, trace = ⟨call, answer⟩ :: later ∧ step call state answer middle ∧
        Runs step (rest answer) middle later value final := by
  constructor
  · intro run
    obtain ⟨_, later, middle, answer, rfl, asked, rest⟩ := run.of_bind
    obtain ⟨rfl, answered⟩ := asked.of_request
    exact ⟨answer, later, middle, rfl, answered, rest⟩
  · rintro ⟨answer, later, middle, rfl, answered, run⟩
    exact (Runs.request answered).bind run

/-- A program after which nothing else is asked. -/
theorem Runs.bind_done {program : Program Call Answer α} {rest : α → Program Call Answer β}
    {state final : σ} {trace : List (Event Call Answer)} {given : α} {value : β}
    (first : Runs step program state trace given final) (last : rest given = .done value) :
    Runs step (program >>= rest) state trace value final := by
  rw [← List.append_nil trace]
  refine first.bind ?_
  rw [last]
  exact .done value final

theorem Runs.of_bind_done {program : Program Call Answer α} {result : α → β} {state final : σ}
    {trace : List (Event Call Answer)} {value : β}
    (run : Runs step (program >>= fun given => pure (result given)) state trace value final) :
    ∃ given, Runs step program state trace given final ∧ value = result given := by
  obtain ⟨early, _, _, given, rfl, first, last⟩ := run.of_bind
  obtain ⟨rfl, rfl, rfl⟩ := last.of_pure
  rw [List.append_nil]
  exact ⟨given, first, rfl⟩

/-- Whatever the answers were, a value that a run ends with is one that the program yields. -/
theorem Yields.runs {holds : α → Prop} {program : Program Call Answer α} {state final : σ}
    {trace : List (Event Call Answer)} {value : α} (yields : Yields holds program)
    (run : Runs step program state trace value final) : holds value := by
  induction run with
  | done value state => exact yields
  | again _ _ _ ih => exact ih yields
  | next _ _ _ ih => exact ih (yields _)

theorem Yields.runWith {holds : α → Prop} {perform : (call : Call) → σ → Option (Answer call × σ)}
    {program : Program Call Answer α} {patience : Nat} {state final : σ} {value : α}
    (yields : Yields holds program)
    (executed : program.runWith perform patience state = some (value, final)) : holds value := by
  have performed : ∃ trace, Runs (fun call before answer after =>
      perform call before = some (answer, after)) program state trace value final :=
    runs_of_runWith (fun _ _ _ _ answered => answered) executed
  obtain ⟨_, run⟩ := performed
  exact yields.runs run

theorem yields_of_forall {holds : α → Prop} (all : ∀ value, holds value)
    (program : Program Call Answer α) : Yields holds program := by
  induction program with
  | done value => exact all value
  | ask call again next ih => exact ih

/-! ## Answers without the program -/

/-- The system gives these answers one after the other. -/
inductive Answered (step : (call : Call) → σ → Answer call → σ → Prop) :
    σ → List (Event Call Answer) → σ → Prop where
  | nil (state : σ) : Answered step state [] state
  | cons {call : Call} {answer : Answer call} {state middle final : σ}
      {rest : List (Event Call Answer)} :
      step call state answer middle → Answered step middle rest final →
      Answered step state (⟨call, answer⟩ :: rest) final

theorem answered_singleton {call : Call} {answer : Answer call} {state final : σ} :
    Answered step state [⟨call, answer⟩] final ↔ step call state answer final := by
  constructor
  · intro answered
    cases answered with
    | cons here later =>
        cases later
        exact here
  · exact fun here => .cons here (.nil final)

theorem answered_append {early late : List (Event Call Answer)} {state final : σ} :
    Answered step state (early ++ late) final ↔
      ∃ middle, Answered step state early middle ∧ Answered step middle late final := by
  induction early generalizing state with
  | nil =>
      constructor
      · exact fun answered => ⟨state, .nil state, answered⟩
      · rintro ⟨middle, none, answered⟩
        cases none
        exact answered
  | cons event early ih =>
      constructor
      · intro answered
        cases answered with
        | cons here later =>
            obtain ⟨middle, before, after⟩ := ih.1 later
            exact ⟨middle, .cons here before, after⟩
      · rintro ⟨middle, before, after⟩
        cases before with
        | cons here later => exact .cons here (ih.2 ⟨middle, later, after⟩)

theorem Runs.answers {program : Program Call Answer α} {state final : σ}
    {trace : List (Event Call Answer)} {value : α}
    (run : Runs step program state trace value final) : Answered step state trace final := by
  induction run with
  | done value state => exact .nil state
  | again answered _ _ ih => exact .cons answered ih
  | next answered _ _ ih => exact .cons answered ih

/-- A call that is repeated has run when it got a usable answer. -/
theorem Runs.insist {call : Call} {again : Answer call → Bool} {state final : σ} {answer : Answer call}
    (answered : step call state answer final) (usable : again answer = false) :
    Runs step (Program.insist call again) state [⟨call, answer⟩] answer final :=
  .next answered usable (.done answer final)

/-! ## The program without its answers -/

/-- The system that may answer anything. -/
def Freely (call : Call) (_ : Unit) (_ : Answer call) (_ : Unit) : Prop :=
  True

theorem Runs.of_freely {program : Program Call Answer α} {start last : Unit} {state final : σ}
    {trace : List (Event Call Answer)} {value : α}
    (run : Runs Freely program start trace value last) (answered : Answered step state trace final) :
    Runs step program state trace value final := by
  induction run generalizing state with
  | done value _ =>
      cases answered
      exact .done value _
  | again _ repeated _ ih =>
      cases answered with
      | cons here later => exact .again here repeated (ih later)
  | next _ usable _ ih =>
      cases answered with
      | cons here later => exact .next here usable (ih later)

/-- A run under a system is a run under any answers, with answers that the system gives. -/
theorem runs_iff_freely {program : Program Call Answer α} {state final : σ}
    {trace : List (Event Call Answer)} {value : α} :
    Runs step program state trace value final ↔
      Runs Freely program () trace value () ∧ Answered step state trace final := by
  constructor
  · intro run
    refine ⟨?_, run.answers⟩
    induction run with
    | done value state => exact .done value ()
    | again _ repeated _ ih => exact .again trivial repeated ih
    | next _ usable _ ih => exact .next trivial usable ih
  · exact fun ⟨run, answered⟩ => run.of_freely answered

/-- What a program can come to when all its answers are agreed on. -/
def Gives (agreed : Event Call Answer → Prop) (program : Program Call Answer α) (value : α) : Prop :=
  ∃ trace, (∀ event ∈ trace, agreed event) ∧ Runs Freely program () trace value ()

variable {agreed : Event Call Answer → Prop}

theorem Runs.gives {program : Program Call Answer α} {state final : σ}
    {trace : List (Event Call Answer)} {value : α} (run : Runs step program state trace value final)
    (all : ∀ event ∈ trace, agreed event) : Gives agreed program value :=
  ⟨trace, all, (runs_iff_freely.1 run).1⟩

theorem gives_pure {given value : α} :
    Gives agreed (pure given : Program Call Answer α) value ↔ value = given := by
  constructor
  · rintro ⟨trace, _, run⟩
    exact run.of_pure.2.1
  · rintro rfl
    exact ⟨[], List.forall_mem_nil _, .done value ()⟩

theorem gives_bind {program : Program Call Answer α} {rest : α → Program Call Answer β} {value : β} :
    Gives agreed (program >>= rest) value ↔
      ∃ given, Gives agreed program given ∧ Gives agreed (rest given) value := by
  constructor
  · rintro ⟨trace, all, run⟩
    obtain ⟨early, late, ⟨⟩, given, rfl, first, second⟩ := run.of_bind
    obtain ⟨before, after⟩ := List.forall_mem_append.1 all
    exact ⟨given, ⟨early, before, first⟩, ⟨late, after, second⟩⟩
  · rintro ⟨given, ⟨early, before, first⟩, ⟨late, after, second⟩⟩
    exact ⟨early ++ late, List.forall_mem_append.2 ⟨before, after⟩, first.bind second⟩

/-- When there is only one answer to agree on, the program goes on with it. -/
theorem gives_request_bind {call : Call} {answer : Answer call}
    {rest : Answer call → Program Call Answer β} {value : β}
    (decided : ∀ given, agreed ⟨call, given⟩ ↔ given = answer) :
    Gives agreed (request call >>= rest) value ↔ Gives agreed (rest answer) value := by
  constructor
  · rintro ⟨trace, all, run⟩
    obtain ⟨given, later, ⟨⟩, rfl, _, run⟩ := runs_request_bind.1 run
    obtain ⟨here, after⟩ := List.forall_mem_cons.1 all
    obtain rfl := (decided given).1 here
    exact ⟨later, after, run⟩
  · rintro ⟨later, after, run⟩
    refine ⟨⟨call, answer⟩ :: later, List.forall_mem_cons.2 ⟨(decided answer).2 rfl, after⟩, ?_⟩
    exact runs_request_bind.2 ⟨answer, later, (), rfl, trivial, run⟩

/-- To every call of the program there is an answer with which it goes on. -/
def Answerable : Program Call Answer α → Prop
  | .done _ => True
  | .ask _ again next => (∃ answer, again answer = false) ∧ ∀ answer, Answerable (next answer)

theorem answerable_pure (value : α) : Answerable (pure value : Program Call Answer α) :=
  trivial

theorem answerable_request {call : Call} (answer : Answer call) :
    Answerable (request call : Program Call Answer (Answer call)) :=
  ⟨⟨answer, rfl⟩, fun _ => trivial⟩

theorem Answerable.bind {program : Program Call Answer α} {rest : α → Program Call Answer β}
    (first : Answerable program) (second : ∀ value, Answerable (rest value)) :
    Answerable (program >>= rest) := by
  change Answerable (program.bind rest)
  induction program with
  | done value => exact second value
  | ask call again next ih => exact ⟨first.1, fun answer => ih answer (first.2 answer)⟩

/-- A program whose calls can be answered can come to its end. -/
theorem Answerable.exists_run {program : Program Call Answer α} (answerable : Answerable program) :
    ∃ trace value, Runs Freely program () trace value () := by
  induction program with
  | done value => exact ⟨[], value, .done value ()⟩
  | ask call again next ih =>
      obtain ⟨⟨answer, usable⟩, later⟩ := answerable
      obtain ⟨trace, value, run⟩ := ih answer (later answer)
      exact ⟨_, value, .next trivial usable run⟩

/-- It can do so from every point that it reaches. -/
theorem Answerable.extends {program left : Program Call Answer α} {state final : σ}
    {trace : List (Event Call Answer)} (answerable : Answerable program)
    (reached : Reaches step program state trace left final) :
    Answerable left ∧ ∀ late value, Runs Freely left () late value () →
      Runs Freely program () (trace ++ late) value () := by
  induction reached with
  | here program state => exact ⟨answerable, fun _ _ run => run⟩
  | again _ repeated _ ih =>
      obtain ⟨left, runs⟩ := ih answerable
      exact ⟨left, fun late value run => .again trivial repeated (runs late value run)⟩
  | next _ usable _ ih =>
      obtain ⟨left, runs⟩ := ih (answerable.2 _)
      exact ⟨left, fun late value run => .next trivial usable (runs late value run)⟩

/-! ## Which calls are asked -/

/-- Whatever the answers are, only allowed calls are asked. -/
def Asks (allowed : Call → Prop) : Program Call Answer α → Prop
  | .done _ => True
  | .ask call _ next => allowed call ∧ ∀ answer, Asks allowed (next answer)

variable {allowed : Call → Prop}

theorem asks_pure (value : α) : Asks allowed (pure value : Program Call Answer α) :=
  trivial

theorem asks_insist {call : Call} (may : allowed call) (again : Answer call → Bool) :
    Asks allowed (insist call again) :=
  ⟨may, fun _ => trivial⟩

theorem asks_request {call : Call} (may : allowed call) :
    Asks allowed (request call : Program Call Answer (Answer call)) :=
  ⟨may, fun _ => trivial⟩

theorem Asks.bind {program : Program Call Answer α} {rest : α → Program Call Answer β}
    (first : Asks allowed program) (second : ∀ value, Asks allowed (rest value)) :
    Asks allowed (program >>= rest) := by
  change Asks allowed (program.bind rest)
  induction program with
  | done value => exact second value
  | ask call again next ih => exact ⟨first.1, fun answer => ih answer (first.2 answer)⟩

theorem Asks.imp {wider : Call → Prop} {program : Program Call Answer α}
    (asks : Asks allowed program) (implied : ∀ call, allowed call → wider call) :
    Asks wider program := by
  induction program with
  | done value => trivial
  | ask call again next ih => exact ⟨implied call asks.1, fun answer => ih answer (asks.2 answer)⟩

/-- Every call of a run was answered in a state with a property that the allowed calls keep. -/
theorem Asks.answered {kept : σ → Prop} {program : Program Call Answer α} {state final : σ}
    {trace : List (Event Call Answer)} {value : α} (asks : Asks allowed program) (start : kept state)
    (keeps : ∀ call before answer after, allowed call → kept before →
      step call before answer after → kept after)
    (run : Runs step program state trace value final) :
    ∀ event ∈ trace, allowed event.call ∧
      ∃ before after, kept before ∧ step event.call before event.answer after := by
  induction run with
  | done value state => exact fun _ mem => absurd mem List.not_mem_nil
  | again answered _ _ ih =>
      refine List.forall_mem_cons.2 ⟨⟨asks.1, _, _, start, answered⟩, ?_⟩
      exact ih asks (keeps _ _ _ _ asks.1 start answered)
  | next answered _ _ ih =>
      refine List.forall_mem_cons.2 ⟨⟨asks.1, _, _, start, answered⟩, ?_⟩
      exact ih (asks.2 _) (keeps _ _ _ _ asks.1 start answered)

theorem Asks.runs {program : Program Call Answer α} {state final : σ}
    {trace : List (Event Call Answer)} {value : α} (asks : Asks allowed program)
    (run : Runs step program state trace value final) : ∀ event ∈ trace, allowed event.call := by
  intro event mem
  have nothing : ∀ call before answer after, allowed call → True →
      step call before answer after → True := fun _ _ _ _ _ _ _ => trivial
  exact (asks.answered trivial nothing run event mem).1

/-- What is left of a program at any point asks no more than the program. -/
theorem Asks.reaches {program left : Program Call Answer α} {state final : σ}
    {trace : List (Event Call Answer)} (asks : Asks allowed program)
    (reached : Reaches step program state trace left final) :
    Asks allowed left ∧ ∀ event ∈ trace, allowed event.call := by
  induction reached with
  | here program state => exact ⟨asks, List.forall_mem_nil _⟩
  | again _ _ _ ih =>
      obtain ⟨later, allowed⟩ := ih asks
      exact ⟨later, List.forall_mem_cons.2 ⟨asks.1, allowed⟩⟩
  | next _ _ _ ih =>
      obtain ⟨later, allowed⟩ := ih (asks.2 _)
      exact ⟨later, List.forall_mem_cons.2 ⟨asks.1, allowed⟩⟩

/-- A call that was asked has been answered in some state. -/
theorem Reaches.answered {program left : Program Call Answer α} {state final : σ}
    {trace : List (Event Call Answer)} (reached : Reaches step program state trace left final) :
    ∀ event ∈ trace, ∃ before after, step event.call before event.answer after := by
  induction reached with
  | here program state => exact List.forall_mem_nil _
  | again answered _ _ ih => exact List.forall_mem_cons.2 ⟨⟨_, _, answered⟩, ih⟩
  | next answered _ _ ih => exact List.forall_mem_cons.2 ⟨⟨_, _, answered⟩, ih⟩

theorem Runs.answered {program : Program Call Answer α} {state final : σ}
    {trace : List (Event Call Answer)} {value : α}
    (run : Runs step program state trace value final) :
    ∀ event ∈ trace, ∃ before after, step event.call before event.answer after :=
  run.reaches.answered

/-! ## Calls that have to be allowed -/

section Heeding

variable {permits : Call → σ → Prop}

/-- The call that comes next is allowed, or the value is right. -/
def InOrder (permits : Call → σ → Prop) (post : α → σ → Prop) : Program Call Answer α → σ → Prop
  | .done value, state => post value state
  | .ask call _ _, state => permits call state

/-- Whatever the answers are, no call is asked where it is not allowed, and the program ends in
`post`. -/
def Heeds (step : (call : Call) → σ → Answer call → σ → Prop) (permits : Call → σ → Prop)
    (program : Program Call Answer α) (post : α → σ → Prop) (state : σ) : Prop :=
  ∀ trace left final, Reaches step program state trace left final → InOrder permits post left final

theorem heeds_pure {value : α} {post : α → σ → Prop} {state : σ} (holds : post value state) :
    Heeds step permits (pure value : Program Call Answer α) post state := by
  intro trace left final run
  cases run
  exact holds

theorem heeds_request {call : Call} {post : Answer call → σ → Prop} {state : σ}
    (may : permits call state)
    (answers : ∀ answer after, step call state answer after → post answer after) :
    Heeds step permits (request call) post state := by
  intro trace left final run
  cases run with
  | here _ _ => exact may
  | again _ repeated _ => simp at repeated
  | next answered _ later =>
      cases later
      exact answers _ _ answered

/-- A call that is asked until the answer is usable; `waiting` holds as long as it is not. -/
theorem heeds_insist {call : Call} {again : Answer call → Bool} {post : Answer call → σ → Prop}
    {state : σ} (waiting : σ → Prop) (start : waiting state)
    (may : ∀ before, waiting before → permits call before)
    (answers : ∀ before answer after, waiting before → step call before answer after →
      if again answer = true then waiting after else post answer after) :
    Heeds step permits (insist call again) post state := by
  intro trace left final run
  generalize asked : insist call again = program at run
  induction run with
  | here program state =>
      cases asked
      exact may _ start
  | again answered repeated _ ih =>
      cases asked
      exact ih ((if_pos repeated).mp (answers _ _ _ start answered)) rfl
  | next answered usable later =>
      cases asked
      cases later
      exact (if_neg (by simp [usable])).mp (answers _ _ _ start answered)

theorem Heeds.bind {program : Program Call Answer α} {rest : α → Program Call Answer β}
    {post : β → σ → Prop} {state : σ}
    (first : Heeds step permits program
      (fun value middle => Heeds step permits (rest value) post middle) state) :
    Heeds step permits (program >>= rest) post state := by
  intro trace left final run
  rcases run.of_bind with ⟨inner, rfl, reached⟩ | ⟨early, late, middle, given, _, ran, reached⟩
  · have ordered := first trace inner final reached
    cases inner with
    | done given => exact ordered [] _ _ (.here _ _)
    | ask call again next => exact ordered
  · exact first early _ middle ran.reaches late left final reached

theorem Heeds.imp {program : Program Call Answer α} {post weaker : α → σ → Prop} {state : σ}
    (heeds : Heeds step permits program post state)
    (implied : ∀ value final, post value final → weaker value final) :
    Heeds step permits program weaker state := by
  intro trace left final run
  have ordered := heeds trace left final run
  cases left with
  | done value => exact implied value final ordered
  | ask call again next => exact ordered

/-- What every step keeps holds at the end as well. -/
theorem Heeds.keeping {kept : σ → Prop} {program : Program Call Answer α} {post : α → σ → Prop}
    {state : σ} (heeds : Heeds step permits program post state) (start : kept state)
    (keeps : ∀ call before answer after, kept before → step call before answer after → kept after) :
    Heeds step permits program (fun value final => post value final ∧ kept final) state := by
  intro trace left final run
  have ordered := heeds trace left final run
  have stays : kept final := by
    clear heeds ordered
    induction run with
    | here program state => exact start
    | again answered _ _ ih => exact ih (keeps _ _ _ _ start answered)
    | next answered _ _ ih => exact ih (keeps _ _ _ _ start answered)
  cases left with
  | done value => exact ⟨ordered, stays⟩
  | ask call again next => exact ordered

/-- A program asks calls that keep a property and are allowed wherever it holds. -/
theorem Asks.heeds {kept : σ → Prop} {program : Program Call Answer α} {state : σ}
    (asks : Asks allowed program) (start : kept state)
    (keeps : ∀ call before answer after, allowed call → kept before →
      step call before answer after → kept after)
    (may : ∀ call before, allowed call → kept before → permits call before) :
    Heeds step permits program (fun _ final => kept final) state := by
  intro trace left final run
  induction run with
  | here program state =>
      cases program with
      | done value => exact start
      | ask call again next => exact may call state asks.1 start
  | again answered _ _ ih => exact ih asks (keeps _ _ _ _ asks.1 start answered)
  | next answered _ _ ih => exact ih (asks.2 _) (keeps _ _ _ _ asks.1 start answered)

/-- Calls that are permitted in every state are permitted along the program. -/
theorem Asks.heeds_anywhere {program : Program Call Answer α} {state : σ}
    (asks : Asks allowed program) (may : ∀ call before, allowed call → permits call before) :
    Heeds step permits program (fun _ _ => True) state :=
  asks.heeds trivial (fun _ _ _ _ _ _ _ => trivial) fun call before may_ask _ => may call before may_ask

end Heeding

/-! ## Calls so far -/

/-- The steps of a system with a record of the calls that it has answered. -/
def Recorded (step : (call : Call) → σ → Answer call → σ → Prop) (call : Call)
    (before : σ × List (Event Call Answer)) (answer : Answer call)
    (after : σ × List (Event Call Answer)) : Prop :=
  step call before.1 answer after.1 ∧ after.2 = before.2 ++ [⟨call, answer⟩]

theorem Reaches.recorded {program left : Program Call Answer α} {state final : σ}
    {trace : List (Event Call Answer)} (run : Reaches step program state trace left final) :
    ∀ record : List (Event Call Answer),
      Reaches (Recorded step) program (state, record) trace left (final, record ++ trace) := by
  induction run with
  | here program state =>
      intro record
      rw [List.append_nil]
      exact .here program _
  | @again call _ _ _ _ _ answer _ _ answered repeated _ ih =>
      intro record
      have later := ih (record ++ [⟨call, answer⟩])
      rw [List.append_assoc] at later
      exact .again ⟨answered, rfl⟩ repeated later
  | @next call _ _ _ _ _ answer _ _ answered usable _ ih =>
      intro record
      have later := ih (record ++ [⟨call, answer⟩])
      rw [List.append_assoc] at later
      exact .next ⟨answered, rfl⟩ usable later

/-- The record grows by the calls of a run, and changes nothing else. -/
theorem Reaches.of_recorded {program left : Program Call Answer α}
    {state final : σ × List (Event Call Answer)} {trace : List (Event Call Answer)}
    (run : Reaches (Recorded step) program state trace left final) :
    Reaches step program state.1 trace left final.1 ∧ final.2 = state.2 ++ trace := by
  induction run with
  | here program state => exact ⟨.here program state.1, (List.append_nil _).symm⟩
  | again answered repeated _ ih =>
      obtain ⟨run, grown⟩ := ih
      refine ⟨.again answered.1 repeated run, ?_⟩
      rw [grown, answered.2, List.append_assoc, List.singleton_append]
  | next answered usable _ ih =>
      obtain ⟨run, grown⟩ := ih
      refine ⟨.next answered.1 usable run, ?_⟩
      rw [grown, answered.2, List.append_assoc, List.singleton_append]

/-- A record only grows. -/
theorem Heeds.recording {permits : Call → σ × List (Event Call Answer) → Prop}
    {program : Program Call Answer α} {post : α → σ × List (Event Call Answer) → Prop}
    {state : σ × List (Event Call Answer)} (heeds : Heeds (Recorded step) permits program post state) :
    Heeds (Recorded step) permits program
      (fun value final => post value final ∧ state.2 <+: final.2) state := by
  refine heeds.keeping List.prefix_rfl ?_
  intro call before answer after shorter recorded
  rw [recorded.2]
  exact shorter.trans (List.prefix_append before.2 _)

/-! ## Running up to a call -/

/-- Ask so many calls under a function; there is no result if the program is done before. -/
def advance (perform : (call : Call) → σ → Option (Answer call × σ)) :
    Nat → Program Call Answer α → σ → Option (Program Call Answer α × σ)
  | 0, program, state => some (program, state)
  | _ + 1, .done _, _ => none
  | count + 1, .ask call again next, state =>
      match perform call state with
      | none => none
      | some (answer, later) =>
          if again answer then advance perform count (.ask call again next) later
          else advance perform count (next answer) later

/-- The call that a program asks first. -/
def call? : Program Call Answer α → Option Call
  | .done _ => none
  | .ask call _ _ => some call

/-- The program can come to a call, after other calls with their answers. -/
def ComesTo (step : (call : Call) → σ → Answer call → σ → Prop) (program : Program Call Answer α)
    (state : σ) (trace : List (Event Call Answer)) (call : Call) (final : σ) : Prop :=
  ∃ left, Reaches step program state trace left final ∧ left.call? = some call

theorem comesTo_first {program : Program Call Answer α} {call : Call} (state : σ)
    (first : program.call? = some call) : ComesTo step program state [] call state :=
  ⟨program, .here program state, first⟩

theorem Runs.comesTo {program : Program Call Answer α} {rest : α → Program Call Answer β}
    {state middle final : σ} {early late : List (Event Call Answer)} {given : α} {call : Call}
    (first : Runs step program state early given middle)
    (second : ComesTo step (rest given) middle late call final) :
    ComesTo step (program >>= rest) state (early ++ late) call final := by
  obtain ⟨left, reached, next⟩ := second
  exact ⟨left, first.bind_reaches reached, next⟩

/-- The next call is the first one of what comes after the program. -/
theorem Runs.comesTo_next {program : Program Call Answer α} {rest : α → Program Call Answer β}
    {state final : σ} {trace : List (Event Call Answer)} {given : α} {call : Call}
    (first : Runs step program state trace given final) (next : (rest given).call? = some call) :
    ComesTo step (program >>= rest) state trace call final := by
  rw [← List.append_nil trace]
  exact first.comesTo (comesTo_first final next)

/-- What comes after a program does not change its calls. -/
theorem ComesTo.bind {program : Program Call Answer α} {rest : α → Program Call Answer β}
    {state final : σ} {trace : List (Event Call Answer)} {call : Call}
    (comes : ComesTo step program state trace call final) :
    ComesTo step (program >>= rest) state trace call final := by
  obtain ⟨left, reached, next⟩ := comes
  induction reached with
  | here program state =>
      cases program with
      | done value => cases next
      | ask asked again following => exact comesTo_first state next
  | again answered repeated _ ih =>
      obtain ⟨left, reached, next⟩ := ih next
      exact ⟨left, .again answered repeated reached, next⟩
  | next answered usable _ ih =>
      obtain ⟨left, reached, next⟩ := ih next
      exact ⟨left, .next answered usable reached, next⟩

/-- Whatever a call that a program comes to is answered, the program can come to its end. -/
theorem Answerable.exists_run_of_comesTo {program : Program Call Answer α} {state final : σ}
    {trace : List (Event Call Answer)} {call : Call} (answerable : Answerable program)
    (comes : ComesTo step program state trace call final) (answer : Answer call) :
    ∃ later value, Runs Freely program () (trace ++ ⟨call, answer⟩ :: later) value () := by
  obtain ⟨left, reached, next⟩ := comes
  obtain ⟨onwards, runs⟩ := answerable.extends reached
  cases left with
  | done value => cases next
  | ask asked again following =>
      obtain rfl := Option.some.inj next
      cases repeated : again answer with
      | true =>
          obtain ⟨later, value, run⟩ := onwards.exists_run
          exact ⟨later, value, runs _ _ (.again trivial repeated run)⟩
      | false =>
          obtain ⟨later, value, run⟩ := (onwards.2 answer).exists_run
          exact ⟨later, value, runs _ _ (.next trivial repeated run)⟩

/-- A call that the program comes to is allowed there, with the calls so far on record. -/
theorem Heeds.comesTo {permits : Call → σ × List (Event Call Answer) → Prop}
    {program : Program Call Answer α} {post : α → σ × List (Event Call Answer) → Prop}
    {state final : σ} {trace : List (Event Call Answer)} {call : Call}
    (heeds : Heeds (Recorded step) permits program post (state, []))
    (comes : ComesTo step program state trace call final) : permits call (final, trace) := by
  obtain ⟨left, reached, next⟩ := comes
  have ordered := heeds trace left _ (reached.recorded [])
  cases left with
  | done value => cases next
  | ask asked again following =>
      obtain rfl := Option.some.inj next
      exact ordered

/-- What is known about the calls that a program can come to is known about each step of a run: the
steps may be replaced by others, and what they keep holds in the end. -/
theorem Reaches.strengthen {stronger : (call : Call) → σ → Answer call → σ → Prop}
    {program left : Program Call Answer α} {state final : σ} {trace : List (Event Call Answer)}
    (run : Reaches step program state trace left final) :
    ∀ kept : σ → List (Event Call Answer) → Prop, kept state [] →
      (∀ record call before answer after, ComesTo step program state record call before →
        kept before record → step call before answer after →
          stronger call before answer after ∧ kept after (record ++ [⟨call, answer⟩])) →
      Reaches stronger program state trace left final ∧ kept final trace := by
  induction run with
  | here program state => exact fun _ start _ => ⟨.here program state, start⟩
  | @again call _ next _ _ _ answer _ _ answered repeated _ ih =>
      intro kept start keeps
      obtain ⟨strong, holds⟩ := keeps [] call _ _ _ (comesTo_first _ rfl) start answered
      have rest := ih (fun state record => kept state (⟨call, answer⟩ :: record)) holds ?_
      · exact ⟨.again strong repeated rest.1, rest.2⟩
      · rintro record other before reply after ⟨left, reached, next⟩ held served
        exact keeps _ _ _ _ _ ⟨left, .again answered repeated reached, next⟩ held served
  | @next call _ next _ _ _ answer _ _ answered usable _ ih =>
      intro kept start keeps
      obtain ⟨strong, holds⟩ := keeps [] call _ _ _ (comesTo_first _ rfl) start answered
      have rest := ih (fun state record => kept state (⟨call, answer⟩ :: record)) holds ?_
      · exact ⟨.next strong usable rest.1, rest.2⟩
      · rintro record other before reply after ⟨left, reached, next⟩ held served
        exact keeps _ _ _ _ _ ⟨left, .next answered usable reached, next⟩ held served

/-- What the calls that a program can come to keep holds at every point of a run. -/
theorem Reaches.keeps {program left : Program Call Answer α} {state final : σ}
    {trace : List (Event Call Answer)} (run : Reaches step program state trace left final)
    (kept : σ → List (Event Call Answer) → Prop) (start : kept state [])
    (keeps : ∀ record call before answer after, ComesTo step program state record call before →
      kept before record → step call before answer after → kept after (record ++ [⟨call, answer⟩])) :
    kept final trace := by
  have both : Reaches step program state trace left final ∧ kept final trace :=
    run.strengthen kept start fun record call before answer after comes holds served =>
      ⟨served, keeps record call before answer after comes holds served⟩
  exact both.2

theorem reaches_of_advance {perform : (call : Call) → σ → Option (Answer call × σ)}
    (performs : ∀ call state answer after, perform call state = some (answer, after) →
      step call state answer after) {count : Nat} :
    ∀ {program left : Program Call Answer α} {state final : σ},
      advance perform count program state = some (left, final) →
      ∃ trace, Reaches step program state trace left final := by
  induction count with
  | zero =>
      intro program left state final advanced
      obtain ⟨rfl, rfl⟩ := Prod.mk.inj (Option.some.inj advanced)
      exact ⟨[], .here program state⟩
  | succ count ih =>
      intro program left state final advanced
      cases program with
      | done value => cases advanced
      | ask call again next =>
          rw [advance] at advanced
          split at advanced
          · cases advanced
          · next answer later performed =>
              have answered := performs call state answer later performed
              split at advanced
              · next repeated =>
                  obtain ⟨trace, reached⟩ := ih advanced
                  exact ⟨_, .again answered repeated reached⟩
              · next usable =>
                  obtain ⟨trace, reached⟩ := ih advanced
                  exact ⟨_, .next answered (Bool.not_eq_true _ ▸ usable) reached⟩

/-! ## Executions that keep their calls -/

section Keeping

variable {perform : (call : Call) → σ → Option (Answer call × σ)}

/-- Answer a call under a function, and keep it with its answer. -/
def record (perform : (call : Call) → σ → Option (Answer call × σ)) (call : Call)
    (state : σ × List (Event Call Answer)) : Option (Answer call × (σ × List (Event Call Answer))) :=
  (perform call state.1).map fun reply => (reply.1, reply.2, state.2 ++ [⟨call, reply.1⟩])

theorem recorded_of_record
    (performs : ∀ call state answer after, perform call state = some (answer, after) →
      step call state answer after) (call : Call) (before : σ × List (Event Call Answer))
    (answer : Answer call) (after : σ × List (Event Call Answer))
    (made : record perform call before = some (answer, after)) :
    Recorded step call before answer after := by
  obtain ⟨⟨given, later⟩, performed, same⟩ := Option.map_eq_some_iff.1 made
  cases same
  exact ⟨performs _ _ _ _ performed, rfl⟩

variable {program left : Program Call Answer α} {state final : σ} {value : α}
variable {trace : List (Event Call Answer)}

/-- What an execution has kept are the calls of a run. -/
theorem runs_of_record
    (performs : ∀ call state answer after, perform call state = some (answer, after) →
      step call state answer after) {patience : Nat}
    (executed : program.runWith (record perform) patience (state, []) = some (value, final, trace)) :
    Runs step program state trace value final := by
  obtain ⟨_, run⟩ := runs_of_runWith (recorded_of_record performs) executed
  obtain ⟨reached, rfl⟩ := run.reaches.of_recorded
  exact reached.runs

theorem reaches_of_record
    (performs : ∀ call state answer after, perform call state = some (answer, after) →
      step call state answer after) {count : Nat}
    (advanced : advance (record perform) count program (state, []) = some (left, final, trace)) :
    Reaches step program state trace left final := by
  obtain ⟨_, run⟩ := reaches_of_advance (recorded_of_record performs) advanced
  obtain ⟨reached, rfl⟩ := run.of_recorded
  exact reached

end Keeping

end Program

end LineShell
