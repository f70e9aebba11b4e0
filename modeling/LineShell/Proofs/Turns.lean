/-
# LineShell.Proofs.Turns -- which lines the loop runs, and in which order

The input is cut after each newline (`Bytes.lines`), and `Dispatch.Plays` says of these
lines, without any loop, which ones are run and what comes then: a line that says `exit`,
a line that is not text, or the end of the input.  From this the calls of the loop can be
written down before it starts (`Dispatch.schedule`).

The system of the loop (`Dispatch.Serves`) hands the input out line by line, and runs
lines as `Session.runLine` does, under any system of its own.  Whether a line ends the
loop depends on its text only (`flow_eq_exit_iff`), so nothing that a command does can
change the schedule.  `loop_follows` shows by induction on the bound of the loop that each
call is the next one of the schedule, that the loop ends at its end, and that each line is
run in the session that the lines before it have left.  The bound is never used up, since
each line has at least one byte.

`Dispatch.keeps_schedule` is the result for the loop with the bound that the program has.
-/
import LineShell.Host.Console
import LineShell.Proofs.Errands
import LineShell.Proofs.Recognising
import Mathlib.Algebra.BigOperators.Group.List.Basic

namespace LineShell

set_option autoImplicit false

open Program

/-! ## Lines of an input -/

section Cutting

variable {α : Type} {ends : α → Bool} {piece rest : List α} {last : α}

/-- Cut a list after each element that ends a piece; the last piece may be without one. -/
def cutAfter (ends : α → Bool) : List α → List (List α)
  | [] => []
  | first :: rest =>
      if ends first then [first] :: cutAfter ends rest
      else
        match cutAfter ends rest with
        | [] => [[first]]
        | piece :: pieces => (first :: piece) :: pieces

/-- Nothing is lost and nothing changes places. -/
theorem flatten_cutAfter (list : List α) : (cutAfter ends list).flatten = list := by
  induction list with
  | nil => rfl
  | cons first rest ih =>
      rw [cutAfter]
      split
      · rw [List.flatten_cons, ih, List.singleton_append]
      · split
        · next none =>
            rw [none] at ih
            simp [← ih]
        · next piece pieces cut =>
            rw [cut] at ih
            simp [← ih]

theorem ne_nil_of_mem_cutAfter {list : List α} (mem : piece ∈ cutAfter ends list) : piece ≠ [] := by
  induction list with
  | nil => cases mem
  | cons first rest ih =>
      rw [cutAfter] at mem
      split at mem
      · rcases List.mem_cons.1 mem with rfl | later
        · exact List.cons_ne_nil _ _
        · exact ih later
      · split at mem
        · obtain rfl := List.mem_singleton.1 mem
          exact List.cons_ne_nil _ _
        · next front pieces cut =>
            rw [cut] at ih
            rcases List.mem_cons.1 mem with rfl | later
            · exact List.cons_ne_nil _ _
            · exact ih (List.mem_cons_of_mem front later)

/-- Each piece takes at least one element. -/
theorem length_cutAfter_le (list : List α) : (cutAfter ends list).length ≤ list.length :=
  calc (cutAfter ends list).length
      = ((cutAfter ends list).map List.length).length := (List.length_map _).symm
    _ ≤ ((cutAfter ends list).map List.length).sum := by
        refine List.length_le_sum_of_one_le _ fun size measured => ?_
        obtain ⟨piece, mem, rfl⟩ := List.mem_map.1 measured
        exact List.length_pos_iff.2 (ne_nil_of_mem_cutAfter mem)
    _ = list.length := by rw [← List.length_flatten, flatten_cutAfter]

theorem cutAfter_append (unended : ∀ x ∈ piece, ends x = false) (ended : ends last = true) :
    cutAfter ends (piece ++ last :: rest) = (piece ++ [last]) :: cutAfter ends rest := by
  induction piece with
  | nil => simp [cutAfter, ended]
  | cons first piece ih =>
      obtain ⟨here, later⟩ := List.forall_mem_cons.1 unended
      rw [List.cons_append, cutAfter, if_neg (by simp [here]), ih later]
      rfl

theorem cutAfter_of_unended (unended : ∀ x ∈ piece, ends x = false) (some : piece ≠ []) :
    cutAfter ends piece = [piece] := by
  induction piece with
  | nil => exact absurd rfl some
  | cons first piece ih =>
      obtain ⟨here, later⟩ := List.forall_mem_cons.1 unended
      rw [cutAfter, if_neg (by simp [here])]
      cases piece with
      | nil => rfl
      | cons next piece => rw [ih later (List.cons_ne_nil _ _)]

end Cutting

namespace Bytes

variable {bytes : Bytes}

/-- The lines of an input, each with its newline; the last one may be without. -/
def lines (bytes : Bytes) : List Bytes :=
  cutAfter (· == newline) bytes

theorem cutLine_nil : cutLine [] = ([], []) :=
  rfl

/-- The line that is cut off is the first one. -/
theorem lines_eq_cons (more : bytes ≠ []) :
    bytes.lines = (cutLine bytes).1 :: (cutLine bytes).2.lines := by
  have inside : ∀ byte ∈ bytes.takeWhile (· ≠ newline), (byte == newline) = false := by
    intro byte mem
    simpa using List.mem_takeWhile_imp mem
  have whole := List.takeWhile_append_dropWhile (p := (· ≠ newline)) (l := bytes)
  unfold cutLine lines
  simp only
  cases dropped : bytes.dropWhile (· ≠ newline) with
  | nil =>
      rw [dropped, List.append_nil] at whole
      rw [whole] at inside ⊢
      exact cutAfter_of_unended inside more
  | cons first rest =>
      have closed : first = newline := by
        have head := List.head_dropWhile_not (· ≠ newline) (l := bytes)
          (by rw [dropped]; exact List.cons_ne_nil _ _)
        simpa only [dropped, List.head_cons, decide_eq_false_iff_not, not_not] using head
      subst closed
      rw [dropped] at whole
      have cut : cutAfter (· == newline) (bytes.takeWhile (· ≠ newline) ++ newline :: rest) = _ :=
        cutAfter_append inside (beq_self_eq_true newline)
      rwa [whole] at cut

theorem cutLine_ne_nil (more : bytes ≠ []) : (cutLine bytes).1 ≠ [] := by
  have mem : (cutLine bytes).1 ∈ bytes.lines := by
    rw [lines_eq_cons more]
    exact List.mem_cons_self
  exact ne_nil_of_mem_cutAfter mem

theorem length_lines_le (bytes : Bytes) : bytes.lines.length ≤ bytes.length :=
  length_cutAfter_le bytes

example : lines (ofText "a\n\nb") = [ofText "a\n", ofText "\n", ofText "b"] := by
  decide +kernel

end Bytes

/-! ## The line that ends the loop -/

section Leaving

/-- The end of a line does not matter when it is stripped. -/
theorem strip_textOf (line : String) :
    strip (Session.textOf line).toList = strip line.toList := by
  obtain ⟨ended, split, lineEnds⟩ := exists_dropTrailing Session.isLineEnd line.toList
  have blank : ∀ c ∈ ended, isBlank c = true := by
    intro c mem
    have lineEnd := lineEnds c mem
    simp only [Session.isLineEnd, Bool.or_eq_true, decide_eq_true_eq] at lineEnd
    rcases lineEnd with rfl | rfl <;> decide
  rw [Session.textOf, String.toList_ofList]
  conv_rhs => rw [split]
  exact (strip_append_blanks blank).symm

/-- The line says that the session ends. -/
def Session.Leaves (line : String) : Prop :=
  strip line.toList = "exit".toList

/-- The session ends with the lines that say so, whatever else happens. -/
theorem flow_eq_exit_iff (line : String) :
    (Errand.ofLine line).flow = .exit ↔ Session.Leaves line := by
  rw [Errand.ofLine, Errand.flow_ofText, Builtin.ofLine?, strip_textOf,
    Builtin.ofStripped?_eq_exit_iff]
  rfl

end Leaving

/-! ## The schedule of the loop -/

namespace Dispatch

/-- The calls of the loop, with their answers. -/
abbrev Record := List (Event Call Call.Answer)

/-- What a call does, whatever the session. -/
inductive Act where
  | prompt
  | read
  | run (text : String)
  deriving DecidableEq, Repr

/-- What a call does. -/
def Call.act : Call → Act
  | .prompt => .prompt
  | .readLine => .read
  | .runLine _ text => .run text

/-- What the calls of a record do. -/
def acts (record : Record) : List Act :=
  record.map fun event => event.call.act

/-- The line that a call runs, with its session. -/
def Call.line? : Call → Option (Session × String)
  | .runLine session text => some (session, text)
  | _ => none

/-- The lines that have been run, with their sessions. -/
def ran (record : Record) : List (Session × String) :=
  record.filterMap fun event => event.call.line?

/-- Which lines of an input are run, and what ends the loop. -/
inductive Plays (lines : List Bytes) : List String → Ending → Prop where
  /-- The first line that says so is the last one to be run. -/
  | exit {before after : List Bytes} {line : Bytes} {texts : List String} {text : String} :
      lines = before ++ line :: after → before.map Bytes.text? = texts.map some →
      (∀ text ∈ texts, ¬ Session.Leaves text) → line.text? = some text → Session.Leaves text →
      Plays lines (texts ++ [text]) .exit
  /-- A line that is not text is not run, and no other line after it. -/
  | notText {before after : List Bytes} {line : Bytes} {texts : List String} :
      lines = before ++ line :: after → before.map Bytes.text? = texts.map some →
      (∀ text ∈ texts, ¬ Session.Leaves text) → line.text? = none → Plays lines texts .notText
  /-- Otherwise all lines are run. -/
  | endOfInput {texts : List String} :
      lines.map Bytes.text? = texts.map some → (∀ text ∈ texts, ¬ Session.Leaves text) →
      Plays lines texts .endOfInput

/-- A turn that runs a line. -/
def turn (text : String) : List Act :=
  [.prompt, .read, .run text]

/-- The turn that finds no line to run. -/
def lastTurn : Ending → List Act
  | .exit => []
  | .endOfInput => turn lastLine
  | .notText => [.prompt, .read]

/-- All turns of the loop. -/
def schedule (texts : List String) (ending : Ending) : List Act :=
  texts.flatMap turn ++ lastTurn ending

theorem plays_exit {lines : List Bytes} {line : Bytes} {text : String}
    (spells : line.text? = some text) (leaves : Session.Leaves text) :
    Plays (line :: lines) [text] .exit := by
  have plays : Plays ([] ++ line :: lines) ([] ++ [text]) .exit :=
    .exit rfl rfl (by simp) spells leaves
  exact plays

theorem plays_notText {lines : List Bytes} {line : Bytes} (unspelled : line.text? = none) :
    Plays (line :: lines) [] .notText := by
  have plays : Plays ([] ++ line :: lines) [] .notText := .notText rfl rfl (by simp) unspelled
  exact plays

theorem Plays.cons {lines : List Bytes} {line : Bytes} {text : String} {texts : List String}
    {ending : Ending} (spells : line.text? = some text) (goesOn : ¬ Session.Leaves text)
    (plays : Plays lines texts ending) : Plays (line :: lines) (text :: texts) ending := by
  cases plays with
  | @exit before after last texts other split spelled stay lastSpelled leaves =>
      subst split
      have plays : Plays (line :: before ++ last :: after) (text :: texts ++ [other]) .exit :=
        .exit rfl (by simp [spells, spelled]) (List.forall_mem_cons.2 ⟨goesOn, stay⟩) lastSpelled leaves
      exact plays
  | @notText before after last _ split spelled stay unspelled =>
      subst split
      have plays : Plays (line :: before ++ last :: after) (text :: texts) .notText :=
        .notText rfl (by simp [spells, spelled]) (List.forall_mem_cons.2 ⟨goesOn, stay⟩) unspelled
      exact plays
  | endOfInput spelled stay =>
      exact .endOfInput (by simp [spells, spelled]) (List.forall_mem_cons.2 ⟨goesOn, stay⟩)

variable {σ : Type} {step : (call : Request) → σ → call.Answer → σ → Prop}

/-- Nobody but the loop reads the input, which it is given line by line, and a line that is run gives
what a run of it gives.  Everything else may change while the loop writes or reads. -/
def Serves (step : (call : Request) → σ → call.Answer → σ → Prop) :
    (call : Call) → Bytes × σ → call.Answer → Bytes × σ → Prop
  | .prompt, before, _, after => after.1 = before.1
  | .readLine, before, line, after => (line, after.1) = before.1.cutLine
  | .runLine session text, before, turn, after => after.1 = before.1 ∧
      ∃ trace outcome, Runs step (session.runLine text) before.2 trace outcome after.2 ∧
        turn = ⟨outcome.session, outcome.flow⟩

/-- The lines that were run are those of a course, which has led to the session. -/
def Coursed (step : (call : Request) → σ → call.Answer → σ → Prop) (first session : Session)
    (record : Record) : Prop :=
  ∃ history, Session.Course step first history session ∧
    ran record = history.map fun stretch => (stretch.session, stretch.line)

/-- A call is the next one of the schedule, and a line is run in the session that the lines before it
have left. -/
structure Due (step : (call : Request) → σ → call.Answer → σ → Prop) (first : Session)
    (scheduled : List Act) (call : Call) (state : (Bytes × σ) × Record) : Prop where
  next : acts state.2 ++ [call.act] <+: scheduled
  session : ∀ session text, call = .runLine session text → Coursed step first session state.2

section Following

variable {first session : Session} {scheduled rest : List Act} {record : Record} {input : Bytes}
variable {state : σ} {post : Option Finish → (Bytes × σ) × Record → Prop}

/-- Each turn begins with the prompt and one line of the input. -/
theorem turn_begins {body : Bytes → Dispatch (Option Finish)}
    (split : acts record ++ .prompt :: .read :: rest = scheduled)
    (coursed : Coursed step first session record)
    (goesOn : ∀ (later : σ) (longer : Record), acts longer = acts record ++ [.prompt, .read] →
      Coursed step first session longer →
      Heeds (Recorded (Serves step)) (Due step first scheduled) (body input.cutLine.1) post
        ((input.cutLine.2, later), longer)) :
    Heeds (Recorded (Serves step)) (Due step first scheduled)
      (do
        system .prompt
        let line ← system .readLine
        body line) post ((input, state), record) := by
  have promptDue : Due step first scheduled .prompt ((input, state), record) :=
    ⟨⟨.read :: rest, by simpa [Call.act] using split⟩, nofun⟩
  refine .bind (heeds_request promptDue ?_)
  rintro _ ⟨⟨left, later⟩, longer⟩ ⟨served, grown⟩
  obtain rfl : left = input := served
  obtain rfl : longer = record ++ [⟨.prompt, ()⟩] := grown
  have readDue : Due step first scheduled .readLine ((left, later), record ++ [⟨.prompt, ()⟩]) :=
    ⟨⟨rest, by simpa [acts, Call.act] using split⟩, nofun⟩
  refine .bind (heeds_request readDue ?_)
  rintro line ⟨⟨less, last⟩, longer⟩ ⟨served, rfl⟩
  have cut : (line, less) = left.cutLine := served
  obtain ⟨rfl, rfl⟩ : line = left.cutLine.1 ∧ less = left.cutLine.2 := by simp [← cut]
  obtain ⟨history, course, lines⟩ := coursed
  exact goesOn last _ (by simp [acts, Call.act])
    ⟨history, course, by simpa [ran, Call.line?] using lines⟩

/-- A line is run where the lines before it have led, and says whether the loop goes on. -/
theorem line_runs {body : Turn → Dispatch (Option Finish)} {text : String}
    (split : acts record ++ .run text :: rest = scheduled) (coursed : Coursed step first session record)
    (goesOn : ∀ (turn : Turn) (later : σ) (longer : Record),
      acts longer = acts record ++ [.run text] → Coursed step first turn.session longer →
      (turn.flow = .exit ↔ Session.Leaves text) →
      Heeds (Recorded (Serves step)) (Due step first scheduled) (body turn) post
        ((input, later), longer)) :
    Heeds (Recorded (Serves step)) (Due step first scheduled)
      (do
        let turn ← system (.runLine session text)
        body turn) post ((input, state), record) := by
  have due : Due step first scheduled (.runLine session text) ((input, state), record) := by
    refine ⟨⟨rest, by simpa [Call.act] using split⟩, ?_⟩
    rintro _ _ ⟨⟩
    exact coursed
  refine .bind (heeds_request due ?_)
  rintro turn ⟨⟨left, later⟩, longer⟩ ⟨⟨served, trace, outcome, run, rfl⟩, grown⟩
  obtain rfl : left = input := served
  obtain rfl : longer = record ++ [⟨.runLine session text, ⟨outcome.session, outcome.flow⟩⟩] := grown
  obtain ⟨history, course, lines⟩ := coursed
  obtain ⟨_, _, _, _, _, _, concluded⟩ := run.of_runLine
  refine goesOn _ later _ (by simp [acts, Call.act]) ⟨_, course.line run, ?_⟩ ?_
  · simp [ran, Call.line?, ← lines]
  · exact concluded.flow.congr_left.trans (flow_eq_exit_iff text)

variable (step first) in
/-- The loop keeps to its schedule: what it has done, and then the turns for the rest of the input. -/
theorem loop_follows (limit : Nat) : ∀ input : Bytes, input.lines.length < limit →
    ∃ texts ending, Plays input.lines texts ending ∧
      ∀ (session : Session) (state : σ) (record : Record), Coursed step first session record →
        Heeds (Recorded (Serves step)) (Due step first (acts record ++ schedule texts ending))
          (loop limit session)
          (fun value final => value = some ⟨ending, 0⟩ ∧
            acts final.2 = acts record ++ schedule texts ending)
          ((input, state), record) := by
  induction limit with
  | zero => exact fun input enough => absurd enough (Nat.not_lt_zero _)
  | succ limit ih =>
      intro input enough
      by_cases ended : input = []
      · subst ended
        refine ⟨[], .endOfInput, .endOfInput rfl nofun, fun session state record coursed => ?_⟩
        refine turn_begins rfl coursed fun later longer begun coursed => ?_
        simp only [Bytes.cutLine_nil, List.isEmpty_nil, if_true]
        refine line_runs (by rw [begun, List.append_assoc]; rfl) coursed
          fun turn later last acted _ _ => ?_
        refine heeds_pure ⟨rfl, ?_⟩
        rw [acted, begun, List.append_assoc]
        rfl
      · have cut := Bytes.lines_eq_cons ended
        have fewer : input.cutLine.2.lines.length < limit := by
          rw [cut, List.length_cons] at enough
          exact Nat.lt_of_succ_lt_succ enough
        have more : input.cutLine.1.isEmpty = false := by simpa using Bytes.cutLine_ne_nil ended
        cases spelled : input.cutLine.1.text? with
        | none =>
            refine ⟨[], .notText, cut ▸ plays_notText spelled, fun session state record coursed => ?_⟩
            refine turn_begins rfl coursed fun later longer begun _ => ?_
            simp only [more, Bool.false_eq_true, if_false, spelled]
            exact heeds_pure ⟨rfl, begun⟩
        | some text =>
            by_cases leaves : Session.Leaves text
            · refine ⟨[text], .exit, cut ▸ plays_exit spelled leaves,
                fun session state record coursed => ?_⟩
              refine turn_begins rfl coursed fun later longer begun coursed => ?_
              simp only [more, Bool.false_eq_true, if_false, spelled]
              refine line_runs (by rw [begun, List.append_assoc]; rfl) coursed
                fun turn later last acted _ flow => ?_
              simp only [flow.2 leaves]
              refine heeds_pure ⟨rfl, ?_⟩
              rw [acted, begun, List.append_assoc]
              rfl
            · obtain ⟨texts, ending, plays, follows⟩ := ih input.cutLine.2 fewer
              refine ⟨text :: texts, ending, cut ▸ plays.cons spelled leaves,
                fun session state record coursed => ?_⟩
              refine turn_begins rfl coursed fun later longer begun coursed => ?_
              simp only [more, Bool.false_eq_true, if_false, spelled]
              refine line_runs (by rw [begun, List.append_assoc]; rfl) coursed
                fun turn later last acted coursed flow => ?_
              have proceeds : turn.flow = .proceed := by
                cases ends : turn.flow with
                | proceed => rfl
                | exit => exact absurd (flow.1 ends) leaves
              simp only [proceeds]
              have whole : acts last ++ schedule texts ending =
                  acts record ++ schedule (text :: texts) ending := by
                rw [acted, begun, List.append_assoc, List.append_assoc]
                rfl
              rw [← whole]
              exact follows turn.session later last coursed

end Following

/-- Whatever ends the loop, its status is 0. -/
theorem loop_yields (limit : Nat) (session : Session) :
    (loop limit session).Yields fun value => ∀ finish, value = some finish → finish.status = 0 := by
  induction limit generalizing session with
  | zero => exact nofun
  | succ limit ih =>
      simp only [loop, yields_bind]
      refine yields_insist fun _ => yields_insist fun line => ?_
      split
      · refine yields_bind.2 (yields_insist fun _ => ?_)
        rintro _ ⟨⟩
        rfl
      · split
        · rintro _ ⟨⟩
          rfl
        · refine yields_bind.2 (yields_insist fun turn => ?_)
          split
          · rintro _ ⟨⟩
            rfl
          · exact ih turn.session

/-- The status of the program, once the session is there. -/
theorem status_of_run {host : Host} {entries : List Bytes} {script : Bytes}
    {finished : Console.Finished} {directory : Path}
    (ran : Console.run host entries script = some finished)
    (there : (host.attachStreams script).2.store.pathOf?
      (host.attachStreams script).2.shell.directory = some directory) : finished.status = 0 := by
  simp only [Console.run, there] at ran
  obtain ⟨⟨value, console⟩, executed, made⟩ := Option.bind_eq_some_iff.1 ran
  obtain ⟨finish, ended, made⟩ := Option.bind_eq_some_iff.1 made
  obtain rfl := Option.some.inj made
  exact (loop_yields _ _).runWith executed finish ended

theorem count_turns (texts : List String) : (texts.flatMap turn).count .prompt = texts.length := by
  induction texts with
  | nil => rfl
  | cons text rest ih =>
      rw [List.flatMap_cons, List.count_append, ih, List.length_cons, Nat.add_comm]
      rfl

theorem Plays.count_schedule {lines : List Bytes} {texts : List String} {ending : Ending}
    (plays : Plays lines texts ending) :
    (schedule texts ending).count .prompt = texts.length + if ending = .exit then 0 else 1 := by
  rw [schedule, List.count_append, count_turns]
  cases plays <;> rfl

/-- Where the loop stands after some calls. -/
structure Turns (step : (call : Request) → σ → call.Answer → σ → Prop) (first : Session)
    (texts : List String) (ending : Ending) (record : Record) (left : Dispatch (Option Finish)) : Prop where
  /-- The next call is the next one of the schedule. -/
  next : ∀ call, left.call? = some call → acts record ++ [call.act] <+: schedule texts ending
  /-- A line is run in the session that the lines before it have left. -/
  session : ∀ session text, left.call? = some (.runLine session text) →
    Coursed step first session record
  /-- The loop ends at the end of the schedule only. -/
  done : ∀ value, left = .done value → value = some ⟨ending, 0⟩ ∧
    acts record = schedule texts ending
  /-- There is one prompt for each line that was run, and one more if no line has ended the loop. -/
  prompts : ∀ value, left = .done value →
    (acts record).count .prompt = texts.length + if ending = .exit then 0 else 1

/-- The input alone says which lines are run, and the loop runs these and no other, each in a turn of
its own; an `exit` is added at the end of the input only.  The status is 0. -/
theorem keeps_schedule (step : (call : Request) → σ → call.Answer → σ → Prop) (session : Session)
    (script : Bytes) (start : σ) :
    (∃ texts ending, Plays script.lines texts ending ∧ ∀ record left final,
      Reaches (Serves step) (loop (script.length + 2) session) (script, start) record left final →
        Turns step session texts ending record left) ∧
    ∀ host entries finished, Console.run host entries script = some finished →
      (∃ directory, (host.attachStreams script).2.store.pathOf?
        (host.attachStreams script).2.shell.directory = some directory) → finished.status = 0 := by
  constructor
  · have enough : script.lines.length < script.length + 2 := by
      have few := script.length_lines_le
      omega
    obtain ⟨texts, ending, plays, follows⟩ := loop_follows step session _ script enough
    refine ⟨texts, ending, plays, fun record left final reached => ?_⟩
    have ordered := follows session start [] ⟨[], .start, rfl⟩ record left _ (reached.recorded [])
    cases left with
    | done value =>
        obtain ⟨rfl, finished⟩ := ordered
        have finished : acts record = schedule texts ending := finished
        refine ⟨nofun, nofun, ?_, ?_⟩
        · rintro _ ⟨⟩
          exact ⟨rfl, finished⟩
        · intro _ _
          rw [finished]
          exact plays.count_schedule
    | ask call again next =>
        refine ⟨?_, ?_, nofun, nofun⟩
        · rintro _ ⟨⟩
          exact ordered.next
        · intro session text asked
          exact ordered.session session text (Option.some.inj asked)
  · intro host entries finished ran there
    obtain ⟨directory, there⟩ := there
    exact status_of_run ran there

-- A blank line goes on, and what stands behind the line that ends the loop is not read.
example :
    let perform : (call : Call) → Bytes → Option (call.Answer × Bytes)
      | .prompt, input => some ((), input)
      | .readLine, input => some input.cutLine
      | .runLine session text, input =>
          ((session.runLine text).runWith (fun _ _ => none) 1 ()).map fun last =>
            (⟨last.1.session, last.1.flow⟩, input)
    (loop 9 (.start ⟨Path.ofText "/", []⟩)).runWith perform 1 (Bytes.ofText "\n exit\nb\n") =
      some (some ⟨.exit, 0⟩, Bytes.ofText "b\n") := by
  decide +kernel

end Dispatch

end LineShell
