/-
# LineShell.Proofs.Assurance -- what a program assures under every way of answering

`Program.Runs` follows a program to its end.  A call that is never answered has no
run, so a fact about all calls that are asked needs the runs that stop anywhere:
`Program.Reaches` relates a program to what is left of it after some answers.

`Program.Assures` is the precondition of a program: started in this state, under
every answer that `step` allows, each event is `sound` and the value and the last
state satisfy `post`.  It is read off the program's tree; the only thing that has
to be found is what holds while a repeated call is waiting.  The rules are

* `assures_pure`, `assures_bind`: one equivalence for each way of building a
  program, so that a program is taken apart by rewriting;
* `assures_request`, `assures_insist`: one call, once or until it is usable;
* `Assures.reaches` and `Assures.runs`: what is assured holds of every run,
  finished or not.

`Program.Yields` is about the values alone, whatever the system is; with it two ways of
going on after a program are equal when they agree on those (`bind_congr_of_yields`).

`Runs.preserves` carries a reflexive and transitive relation from the steps to the
runs, and `runs_of_runWith` turns an execution under a function into a run.
-/
import LineShell.Program

namespace LineShell

set_option autoImplicit false

namespace Program

variable {Call : Type} {Answer : Call → Type} {α β σ : Type}
variable {step : (call : Call) → σ → Answer call → σ → Prop}

/-! ## Unfinished runs -/

/-- `program`, started in a state, can ask the calls of the trace with those answers, and `rest` is
what is left of it then. -/
inductive Reaches (step : (call : Call) → σ → Answer call → σ → Prop) :
    Program Call Answer α → σ → List (Event Call Answer) → Program Call Answer α → σ → Prop where
  | here (program : Program Call Answer α) (state : σ) : Reaches step program state [] program state
  | again {call : Call} {again : Answer call → Bool} {next : Answer call → Program Call Answer α}
      {state middle final : σ} {answer : Answer call} {trace : List (Event Call Answer)}
      {rest : Program Call Answer α} :
      step call state answer middle → again answer = true →
      Reaches step (.ask call again next) middle trace rest final →
      Reaches step (.ask call again next) state (⟨call, answer⟩ :: trace) rest final
  | next {call : Call} {again : Answer call → Bool} {next : Answer call → Program Call Answer α}
      {state middle final : σ} {answer : Answer call} {trace : List (Event Call Answer)}
      {rest : Program Call Answer α} :
      step call state answer middle → again answer = false →
      Reaches step (next answer) middle trace rest final →
      Reaches step (.ask call again next) state (⟨call, answer⟩ :: trace) rest final

theorem Runs.reaches {program : Program Call Answer α} {state final : σ}
    {trace : List (Event Call Answer)} {value : α}
    (run : Runs step program state trace value final) :
    Reaches step program state trace (.done value) final := by
  induction run with
  | done value state => exact .here _ _
  | again answered repeated _ ih => exact .again answered repeated ih
  | next answered usable _ ih => exact .next answered usable ih

/-- What every step keeps or extends, every run does. -/
theorem Runs.preserves {relation : σ → σ → Prop} (refl : ∀ state, relation state state)
    (trans : ∀ {first middle last}, relation first middle → relation middle last → relation first last)
    (steps : ∀ {call before answer after}, step call before answer after → relation before after)
    {program : Program Call Answer α} {state final : σ} {trace : List (Event Call Answer)} {value : α}
    (run : Runs step program state trace value final) : relation state final := by
  induction run with
  | done value state => exact refl state
  | again answered _ _ ih => exact trans (steps answered) ih
  | next answered _ _ ih => exact trans (steps answered) ih

/-! ## Assurance -/

/-- Whatever the answers are, every event is sound and the program ends in `post`. -/
def Assures (step : (call : Call) → σ → Answer call → σ → Prop) (sound : Event Call Answer → Prop) :
    Program Call Answer α → (α → σ → Prop) → σ → Prop
  | .done value, post, state => post value state
  | .ask call again next, post, state =>
      ∃ waiting : σ → Prop, waiting state ∧
        ∀ before answer after, waiting before → step call before answer after →
          sound ⟨call, answer⟩ ∧
            if again answer = true then waiting after
            else Assures step sound (next answer) post after

variable {sound : Event Call Answer → Prop}

@[simp] theorem assures_pure {value : α} {post : α → σ → Prop} {state : σ} :
    Assures step sound (pure value) post state ↔ post value state :=
  Iff.rfl

theorem Assures.imp {program : Program Call Answer α} {post weaker : α → σ → Prop} {state : σ}
    (assured : Assures step sound program post state)
    (implied : ∀ value final, post value final → weaker value final) :
    Assures step sound program weaker state := by
  induction program generalizing state with
  | done value => exact implied value state assured
  | ask call again next ih =>
      obtain ⟨waiting, start, stays⟩ := assured
      refine ⟨waiting, start, fun before answer after waits answered => ?_⟩
      obtain ⟨isSound, goesOn⟩ := stays before answer after waits answered
      refine ⟨isSound, ?_⟩
      split
      · next repeated => exact (if_pos repeated).mp goesOn
      · next usable => exact ih answer ((if_neg usable).mp goesOn)

@[simp] theorem assures_bind {program : Program Call Answer α} {rest : α → Program Call Answer β}
    {post : β → σ → Prop} {state : σ} :
    Assures step sound (program >>= rest) post state ↔
      Assures step sound program (fun value middle => Assures step sound (rest value) post middle)
        state := by
  change Assures step sound (program.bind rest) post state ↔ _
  induction program generalizing state with
  | done value => rfl
  | ask call again next ih =>
      simp only [bind, Assures]
      refine exists_congr fun waiting => and_congr_right fun _ => ?_
      refine forall_congr' fun before => forall_congr' fun answer => forall_congr' fun after => ?_
      simp only [ih answer]

/-- A call that is asked once. -/
theorem assures_request {call : Call} {post : Answer call → σ → Prop} {state : σ}
    (answers : ∀ answer after, step call state answer after →
      sound ⟨call, answer⟩ ∧ post answer after) :
    Assures step sound (request call) post state := by
  refine ⟨(· = state), rfl, ?_⟩
  rintro _ answer after rfl answered
  obtain ⟨isSound, holds⟩ := answers answer after answered
  exact ⟨isSound, (if_neg (by simp)).mpr holds⟩

/-- A call that is asked until the answer is usable; `waiting` holds as long as it is not. -/
theorem assures_insist {call : Call} {again : Answer call → Bool} {post : Answer call → σ → Prop}
    {state : σ} (waiting : σ → Prop) (start : waiting state)
    (answers : ∀ before answer after, waiting before → step call before answer after →
      sound ⟨call, answer⟩ ∧ if again answer = true then waiting after else post answer after) :
    Assures step sound (insist call again) post state :=
  ⟨waiting, start, answers⟩

/-- What is assured holds along every run, finished or not. -/
theorem Assures.reaches {program rest : Program Call Answer α} {post : α → σ → Prop} {state final : σ}
    {trace : List (Event Call Answer)} (assured : Assures step sound program post state)
    (run : Reaches step program state trace rest final) :
    Assures step sound rest post final ∧ ∀ event ∈ trace, sound event := by
  induction run with
  | here program state => exact ⟨assured, by simp⟩
  | again answered repeated _ ih =>
      obtain ⟨waiting, start, stays⟩ := assured
      obtain ⟨isSound, goesOn⟩ := stays _ _ _ start answered
      obtain ⟨assured, later⟩ := ih ⟨waiting, (if_pos repeated).mp goesOn, stays⟩
      exact ⟨assured, List.forall_mem_cons.2 ⟨isSound, later⟩⟩
  | next answered usable _ ih =>
      obtain ⟨waiting, start, stays⟩ := assured
      obtain ⟨isSound, goesOn⟩ := stays _ _ _ start answered
      obtain ⟨assured, later⟩ := ih ((if_neg (by simp [usable])).mp goesOn)
      exact ⟨assured, List.forall_mem_cons.2 ⟨isSound, later⟩⟩

theorem Assures.runs {program : Program Call Answer α} {post : α → σ → Prop} {state final : σ}
    {trace : List (Event Call Answer)} {value : α} (assured : Assures step sound program post state)
    (run : Runs step program state trace value final) :
    post value final ∧ ∀ event ∈ trace, sound event :=
  assured.reaches run.reaches

/-! ## Values -/

/-- Whatever the answers are, a value that the program ends with satisfies `holds`. -/
def Yields (holds : α → Prop) : Program Call Answer α → Prop
  | .done value => holds value
  | .ask _ _ next => ∀ answer, Yields holds (next answer)

@[simp] theorem yields_pure {holds : α → Prop} {value : α} :
    Yields holds (pure value : Program Call Answer α) ↔ holds value :=
  Iff.rfl

@[simp] theorem yields_bind {holds : β → Prop} {program : Program Call Answer α}
    {rest : α → Program Call Answer β} :
    Yields holds (program >>= rest) ↔ Yields (fun value => Yields holds (rest value)) program := by
  change Yields holds (program.bind rest) ↔ _
  induction program with
  | done value => rfl
  | ask call again next ih => exact forall_congr' fun answer => ih answer

theorem Yields.imp {holds weaker : α → Prop} {program : Program Call Answer α}
    (yields : Yields holds program) (implied : ∀ value, holds value → weaker value) :
    Yields weaker program := by
  induction program with
  | done value => exact implied value yields
  | ask call again next ih => exact fun answer => ih answer (yields answer)

theorem yields_insist {call : Call} {again : Answer call → Bool} {holds : Answer call → Prop}
    (all : ∀ answer, holds answer) : Yields holds (insist call again) :=
  all

/-- What follows a program matters for the values that it can end with only. -/
theorem bind_congr_of_yields {holds : α → Prop} {program : Program Call Answer α}
    {first second : α → Program Call Answer β} (yields : Yields holds program)
    (same : ∀ value, holds value → first value = second value) :
    program >>= first = program >>= second := by
  change program.bind first = program.bind second
  induction program with
  | done value => exact same value yields
  | ask call again next ih =>
      simp only [bind]
      congr 1
      funext answer
      exact ih answer (yields answer)

/-! ## Executions are runs -/

section Execution

variable {perform : (call : Call) → σ → Option (Answer call × σ)}

theorem runs_of_attempt
    (performs : ∀ call state answer after, perform call state = some (answer, after) →
      step call state answer after)
    {call : Call} {again : Answer call → Bool} {next : Answer call → Program Call Answer α}
    {patience : Nat} {state middle final : σ} {answer : Answer call}
    {trace : List (Event Call Answer)} {value : α}
    (answered : attempt perform call again patience state = some (answer, middle))
    (run : Runs step (next answer) middle trace value final) :
    ∃ longer, Runs step (.ask call again next) state longer value final := by
  induction patience generalizing state with
  | zero => simp [attempt] at answered
  | succ patience ih =>
      cases first : perform call state with
      | none => simp [attempt, first] at answered
      | some reply =>
          obtain ⟨reply, later⟩ := reply
          cases repeated : again reply with
          | true =>
              obtain ⟨longer, run⟩ := ih (by simpa [attempt, first, repeated] using answered)
              exact ⟨_, .again (performs _ _ _ _ first) repeated run⟩
          | false =>
              obtain ⟨rfl, rfl⟩ : reply = answer ∧ later = middle := by
                simpa [attempt, first, repeated] using answered
              exact ⟨_, .next (performs _ _ _ _ first) repeated run⟩

/-- A result of executing a program under a function is the end of a run. -/
theorem runs_of_runWith
    (performs : ∀ call state answer after, perform call state = some (answer, after) →
      step call state answer after)
    {patience : Nat} {program : Program Call Answer α} {state final : σ} {value : α}
    (executed : program.runWith perform patience state = some (value, final)) :
    ∃ trace, Runs step program state trace value final := by
  induction program generalizing state with
  | done given =>
      obtain ⟨rfl, rfl⟩ : given = value ∧ state = final := by simpa [runWith] using executed
      exact ⟨[], .done given state⟩
  | ask call again next ih =>
      cases asked : attempt perform call again patience state with
      | none => simp [runWith, asked] at executed
      | some reply =>
          obtain ⟨answer, middle⟩ := reply
          obtain ⟨trace, run⟩ := ih answer (by simpa [runWith, asked] using executed)
          exact runs_of_attempt performs asked run

end Execution

end Program

end LineShell
