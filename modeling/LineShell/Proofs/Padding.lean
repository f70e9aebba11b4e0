/-
# LineShell.Proofs.Padding -- blanks around a line mean nothing

A line passes through four places that look at its ends: the end of the line is cut off,
a builtin is looked for in the stripped text, the marker is cut off behind the last
character that is no blank, and what is left is split into words.  All of this depends on
the stripped text alone (`Errand.ofText_congr`), and blanks around a line do not change
that, be they spaces, line ends or any other blanks in any mix.

So a line with blanks around it is the same program as the line itself, and
`Session.runLine_padded` says what follows: under the same answers everything is the same.
-/
import LineShell.Proofs.Marking
import LineShell.Proofs.Undisturbed

namespace LineShell

set_option autoImplicit false

open Program

/-! ## What a line asks for -/

section Reading

variable {text other line before after : String}

/-- What a text asks for depends on what is left of it when it is stripped. -/
theorem Errand.ofText_congr (same : strip text.toList = strip other.toList) :
    ofText text = ofText other := by
  have builtin : Builtin.ofLine? text = Builtin.ofLine? other := by
    rw [Builtin.ofLine?, Builtin.ofLine?, same]
  obtain ⟨background, left⟩ := Marked.ofLine_congr (words_congr same)
  have parsed : Line.parse (Marked.ofLine text).rest = Line.parse (Marked.ofLine other).rest :=
    Line.parse_congr left
  unfold ofText
  rw [builtin, parsed, background]

/-- Blanks around a line do not change what it asks for. -/
theorem Errand.ofLine_padded (blankBefore : ∀ c ∈ before.toList, isBlank c = true)
    (blankAfter : ∀ c ∈ after.toList, isBlank c = true) :
    ofLine (before ++ line ++ after) = ofLine line := by
  refine ofText_congr ?_
  rw [strip_textOf, strip_textOf, String.toList_append, String.toList_append]
  exact strip_padded blankBefore blankAfter

/-- A line with blanks around it is the same program. -/
theorem runLine_eq_of_padded (session : Session)
    (blankBefore : ∀ c ∈ before.toList, isBlank c = true)
    (blankAfter : ∀ c ∈ after.toList, isBlank c = true) :
    session.runLine (before ++ line ++ after) = session.runLine line := by
  rw [runLine_eq, runLine_eq, Errand.ofLine_padded blankBefore blankAfter]

end Reading

/-! ## What a line comes to -/

/-- Two lines have come to the same. -/
structure Unaffected (one other : Stretch) : Prop where
  flow : one.outcome.flow = other.outcome.flow
  output : Bytes.ofText one.outcome.output = Bytes.ofText other.outcome.output
  errors : Bytes.ofText one.outcome.errors = Bytes.ofText other.outcome.errors
  children : startedChildren one.trace = startedChildren other.trace
  directory : one.outcome.session.directory = other.outcome.session.directory
  environment : one.outcome.session.environment = other.outcome.session.environment
  jobs : one.outcome.session.jobs = other.outcome.session.jobs
  /-- The same was asked and answered in between. -/
  trace : one.trace = other.trace

/-- Blanks around a line mean nothing: it is the same program, and when it is answered alike it comes
to the same. -/
theorem Session.runLine_padded {σ τ : Type} (step : (call : Request) → σ → call.Answer → σ → Prop)
    (otherStep : (call : Request) → τ → call.Answer → τ → Prop) (session : Session)
    (line before after : String) (blankBefore : ∀ c ∈ before.toList, isBlank c = true)
    (blankAfter : ∀ c ∈ after.toList, isBlank c = true) :
    session.runLine (before ++ line ++ after) = session.runLine line ∧
      ∀ state final otherState otherFinal trace otherTrace outcome otherOutcome,
        Runs step (session.runLine (before ++ line ++ after)) state trace outcome final →
        Runs otherStep (session.runLine line) otherState otherTrace otherOutcome otherFinal →
        AnsweredAlike trace otherTrace →
        Unaffected ⟨session, before ++ line ++ after, trace, outcome⟩
          ⟨session, line, otherTrace, otherOutcome⟩ := by
  have same : session.runLine (before ++ line ++ after) = session.runLine line :=
    runLine_eq_of_padded session blankBefore blankAfter
  refine ⟨same, ?_⟩
  intro state final otherState otherFinal trace otherTrace outcome otherOutcome run otherRun alike
  rw [same] at run
  obtain ⟨rfl, rfl⟩ := run.unique otherRun alike
  exact ⟨rfl, rfl, rfl, rfl, rfl, rfl, rfl, rfl⟩

/-- Blanks of five kinds stand around this line, some of them behind its marker. -/
theorem Session.runLine_padded_marked :
    let session : Session := ⟨⟨Path.ofText "/", []⟩, [⟨7, true⟩]⟩
    let padded : String := "\u00a0\n" ++ "b >c &" ++ " \r\n\u2003"
    let outcome : Session.Outcome :=
      ⟨⟨⟨Path.ofText "/", []⟩, [⟨7, true⟩, ⟨1, true⟩]⟩, .proceed, [.started 1], none⟩
    let calm := fun (call : Request) (_ : Unit) (answer : call.Answer) (_ : Unit) =>
      answer = call.calmly
    ∃ trace otherTrace,
      Runs calm (session.runLine padded) () trace outcome () ∧
      Runs calm (session.runLine "b >c &") () otherTrace outcome () ∧
      AnsweredAlike trace otherTrace ∧
      Unaffected ⟨session, padded, trace, outcome⟩ ⟨session, "b >c &", otherTrace, outcome⟩ := by
  intro session padded outcome calm
  have ran (line : String)
      (done : (session.runLine line).runWith (fun call state => some (call.calmly, state)) 1 () =
        some (outcome, ())) :
      ∃ trace, Runs calm (session.runLine line) () trace outcome () := by
    refine runs_of_runWith (fun call state answer after answered => ?_) done
    exact (Prod.mk.inj (Option.some.inj answered)).1.symm
  have given {line : String} {trace : Shell.Trace}
      (run : Runs calm (session.runLine line) () trace outcome ()) :
      ∀ event ∈ trace, event.answer = event.call.calmly := by
    intro event mem
    obtain ⟨_, _, answered⟩ := run.answered event mem
    exact answered
  obtain ⟨trace, run⟩ := ran padded (by decide +kernel)
  obtain ⟨otherTrace, otherRun⟩ := ran "b >c &" (by decide +kernel)
  have alike : AnsweredAlike trace otherTrace := answeredAlike_of_function (given run) (given otherRun)
  refine ⟨trace, otherTrace, run, otherRun, alike, ?_⟩
  refine (Session.runLine_padded calm calm session "b >c &" "\u00a0\n" " \r\n\u2003" ?_ ?_).2
    () () () () trace otherTrace outcome outcome run otherRun alike
  · exact List.all_eq_true.1 (by decide +kernel)
  · exact List.all_eq_true.1 (by decide +kernel)

end LineShell
