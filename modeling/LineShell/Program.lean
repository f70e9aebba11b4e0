/-
# LineShell.Program -- programs that ask the system

A program is either done with a value or asks one call and goes on with the
answer.  What the system does is not part of it: the same program runs under any
way of answering.  Two ways are defined here.  `Program.Runs` relates a program
to the calls it asks and the value it ends with, under a relation that may answer
freely and keep a state; `Program.runWith` executes it under a function.

Some calls are repeated until the answer is usable: an interrupted wait, or a
wait that reports a child that is still around.  The repetition has no bound of
its own, so it is part of the request: `again` says which answers make the
program ask the same call once more.
-/

namespace LineShell

set_option autoImplicit false

/-- A program whose calls `Call` are answered by values of `Answer`. -/
inductive Program (Call : Type) (Answer : Call → Type) (α : Type) where
  | done (value : α)
  | ask (call : Call) (again : Answer call → Bool) (next : Answer call → Program Call Answer α)

namespace Program

variable {Call : Type} {Answer : Call → Type} {α β γ : Type}

/-- Go on with the value of a program. -/
def bind : Program Call Answer α → (α → Program Call Answer β) → Program Call Answer β
  | .done value, rest => rest value
  | .ask call again next, rest => .ask call again fun answer => (next answer).bind rest

instance : Monad (Program Call Answer) where
  pure := .done
  bind := bind

/-- Ask once. -/
def request (call : Call) : Program Call Answer (Answer call) :=
  .ask call (fun _ => false) .done

/-- Ask until the answer is usable. -/
def insist (call : Call) (again : Answer call → Bool) : Program Call Answer (Answer call) :=
  .ask call again .done

theorem bind_done (program : Program Call Answer α) : program.bind .done = program := by
  induction program with
  | done value => rfl
  | ask call again next ih => simp only [bind]; congr 1; funext answer; exact ih answer

theorem bind_assoc (program : Program Call Answer α) (first : α → Program Call Answer β)
    (second : β → Program Call Answer γ) :
    (program.bind first).bind second = program.bind fun value => (first value).bind second := by
  induction program with
  | done value => rfl
  | ask call again next ih => simp only [bind]; congr 1; funext answer; exact ih answer

instance : LawfulMonad (Program Call Answer) :=
  LawfulMonad.mk' _ (fun program => bind_done program) (fun _ _ => rfl)
    (fun program first second => bind_assoc program first second)

/-- Ask the calls of `program` as calls of a wider system. -/
def lift {Wider : Type} {Reply : Wider → Type} (wrap : Call → Wider)
    (unwrap : (call : Call) → Reply (wrap call) → Answer call) :
    Program Call Answer α → Program Wider Reply α
  | .done value => .done value
  | .ask call again next =>
      .ask (wrap call) (fun reply => again (unwrap call reply)) fun reply =>
        (next (unwrap call reply)).lift wrap unwrap

/-! ## Running under a relation -/

/-- A call with its answer. -/
structure Event (Call : Type) (Answer : Call → Type) where
  call : Call
  answer : Answer call

/-- `program`, started in a state, can ask the calls of the trace with those answers, end with the
value, and leave the state, if `step` allows each answer. -/
inductive Runs {σ : Type} (step : (call : Call) → σ → Answer call → σ → Prop) :
    Program Call Answer α → σ → List (Event Call Answer) → α → σ → Prop where
  | done (value : α) (state : σ) : Runs step (.done value) state [] value state
  | again {call : Call} {again : Answer call → Bool} {next : Answer call → Program Call Answer α}
      {state middle final : σ} {answer : Answer call} {trace : List (Event Call Answer)} {value : α} :
      step call state answer middle → again answer = true →
      Runs step (.ask call again next) middle trace value final →
      Runs step (.ask call again next) state (⟨call, answer⟩ :: trace) value final
  | next {call : Call} {again : Answer call → Bool} {next : Answer call → Program Call Answer α}
      {state middle final : σ} {answer : Answer call} {trace : List (Event Call Answer)} {value : α} :
      step call state answer middle → again answer = false →
      Runs step (next answer) middle trace value final →
      Runs step (.ask call again next) state (⟨call, answer⟩ :: trace) value final

/-! ## Running under a function -/

/-- Ask a call until the answer is usable, at most `patience` times. -/
def attempt {σ : Type} (perform : (call : Call) → σ → Option (Answer call × σ)) (call : Call)
    (again : Answer call → Bool) : Nat → σ → Option (Answer call × σ)
  | 0, _ => none
  | patience + 1, state =>
      match perform call state with
      | none => none
      | some (answer, later) =>
          if again answer then attempt perform call again patience later else some (answer, later)

/-- Execute a program.  There is no result if a call is never answered. -/
def runWith {σ : Type} (perform : (call : Call) → σ → Option (Answer call × σ)) (patience : Nat) :
    Program Call Answer α → σ → Option (α × σ)
  | .done value, state => some (value, state)
  | .ask call again next, state =>
      match attempt perform call again patience state with
      | none => none
      | some (answer, later) => (next answer).runWith perform patience later

end Program

end LineShell
