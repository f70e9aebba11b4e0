/-
# LineShell.Proofs.Rebinding -- a file in the place of a stream, from any table

A child that opens a file for a stream is handed the lowest free descriptor, which may be
the stream itself or the other standard stream.  Nothing is assumed here about the table
that the child starts with: any of its streams may be closed.

A `Desk` is such a table together with the openings of the child.  Each opening makes a file
of its own, which is known by its number, so a table tells which descriptors lead to it.
`Desk.Answers` are the answers to a child; any call may fail, and a call that fails to
duplicate or to close may leave any desk.

`Desk.Fitted` says what redirections do: each stream leads to the file that was opened for
it, nothing else leads there, and no other descriptor has changed.  `Fitted.concat` adds a
redirection for another stream.  `Entry.rebinds_from_any_desk` states it for one stream, for
which a file was opened or refused, and for a child that has come to its program.
-/
import LineShell.Proofs.Entering
import LineShell.Proofs.Grounding
import LineShell.Proofs.Tables

namespace LineShell

set_option autoImplicit false

open Program

/-! ## Desks -/

/-- What a descriptor of a child leads to. -/
inductive Source (α : Type) where
  /-- A file that was open before. -/
  | kept (file : α)
  /-- The file that one of the openings has made, counted from 0. -/
  | opened (number : Nat)
  deriving DecidableEq

/-- The descriptors of a child, and the openings so far, the first one first. -/
structure Desk (α : Type) where
  table : Descriptors (Source α)
  openings : List (NulFree × Entry.Access)
  numbered : ∀ descriptor number, table.get? descriptor = some (.opened number) →
    number < openings.length

namespace Desk

variable {α : Type}

/-- The desk after an opening that was given a descriptor. -/
def add (desk : Desk α) (descriptor : Descriptor) (file : NulFree) (access : Entry.Access) :
    Desk α where
  table := desk.table.set descriptor (.opened desk.openings.length)
  openings := desk.openings ++ [(file, access)]
  numbered := by
    intro asked number leads
    rw [Descriptors.get?_set] at leads
    rw [List.length_append, List.length_singleton]
    split at leads
    · cases leads
      exact Nat.lt_succ_self _
    · exact Nat.lt_succ_of_lt (desk.numbered asked number leads)

/-- The desk after a descriptor was duplicated; nothing happens to one that is not open. -/
def copy (desk : Desk α) (source target : Descriptor) : Desk α where
  table :=
    match desk.table.get? source with
    | none => desk.table
    | some found => desk.table.set target found
  openings := desk.openings
  numbered := by
    intro asked number leads
    split at leads
    · exact desk.numbered asked number leads
    · next found there =>
        rw [Descriptors.get?_set] at leads
        split at leads
        · exact desk.numbered source number (there.trans leads)
        · exact desk.numbered asked number leads

/-- The desk after a descriptor was closed. -/
def drop (desk : Desk α) (descriptor : Descriptor) : Desk α where
  table := desk.table.erase descriptor
  openings := desk.openings
  numbered := by
    intro asked number leads
    rw [Descriptors.get?_erase] at leads
    split at leads
    · cases leads
    · exact desk.numbered asked number leads

section Views

variable (desk : Desk α)

@[simp] theorem get?_add (descriptor asked : Descriptor) (file : NulFree) (access : Entry.Access) :
    (desk.add descriptor file access).table.get? asked =
      if asked = descriptor then some (.opened desk.openings.length) else desk.table.get? asked :=
  Descriptors.get?_set desk.table descriptor asked _

@[simp] theorem get?_copy {source : Descriptor} {found : Source α}
    (there : desk.table.get? source = some found) (target asked : Descriptor) :
    (desk.copy source target).table.get? asked =
      if asked = target then some found else desk.table.get? asked := by
  rw [← Descriptors.get?_set]
  simp [copy, there]

@[simp] theorem get?_drop (descriptor asked : Descriptor) :
    (desk.drop descriptor).table.get? asked =
      if asked = descriptor then none else desk.table.get? asked :=
  Descriptors.get?_erase desk.table descriptor asked

end Views

/-- The answers to a child.  What a call leaves that fails is not said, except for an opening. -/
def Answers : (call : Entry.Call) → Desk α → call.Answer → Desk α → Prop
  | .openFile file access, before, answer, after =>
      (∃ opened, before.table.Lowest opened ∧ answer = .ok opened ∧
        after = before.add opened file access) ∨
      (∃ errno, answer = .error errno) ∧ after = before
  | .duplicate source target, before, answer, after =>
      ((before.table.get? source).isSome = true ∧ answer = .ok () ∧ after = before.copy source target) ∨
      ∃ errno, answer = .error errno
  | .close descriptor, before, answer, after =>
      ((before.table.get? descriptor).isSome = true ∧ answer = .ok () ∧
        after = before.drop descriptor) ∨
      ∃ errno, answer = .error errno
  | .enterDirectory _, before, _, after => after = before
  | .execute _ _ _, before, _, after => after = before
  | .write _ _, before, _, after => after = before

section Inversion

variable {before after : Desk α}

theorem Answers.of_opened {file : NulFree} {access : Entry.Access} {opened : Descriptor}
    (answered : Answers (.openFile file access) before (.ok opened) after) :
    before.table.Lowest opened ∧ after = before.add opened file access := by
  rcases answered with ⟨_, lowest, same, added⟩ | ⟨⟨errno, failed⟩, _⟩
  · cases same
    exact ⟨lowest, added⟩
  · cases failed

theorem Answers.of_duplicated {source target : Descriptor}
    (answered : Answers (.duplicate source target) before (.ok ()) after) :
    after = before.copy source target := by
  rcases answered with ⟨_, _, copied⟩ | ⟨errno, failed⟩
  · exact copied
  · cases failed

theorem Answers.of_closed {descriptor : Descriptor}
    (answered : Answers (.close descriptor) before (.ok ()) after) : after = before.drop descriptor := by
  rcases answered with ⟨_, _, dropped⟩ | ⟨errno, failed⟩
  · exact dropped
  · cases failed

end Inversion

/-! ## What redirections do -/

/-- Redirections were carried out: one opening for each of them, one descriptor for each opening, and
nothing else. -/
structure Fitted (redirections : List Entry.Redirection) (before after : Desk α) : Prop where
  openings : after.openings =
    before.openings ++ redirections.map fun redirection => (redirection.file, redirection.access)
  /-- The stream leads to the file that was opened for it, and no other descriptor does. -/
  leads : ∀ redirection ∈ redirections, ∃ number, before.openings.length ≤ number ∧
    after.openings[number]? = some (redirection.file, redirection.access) ∧
      ∀ descriptor, after.table.get? descriptor = some (.opened number) ↔
        descriptor = redirection.stream
  others : ∀ descriptor, (∀ redirection ∈ redirections, descriptor ≠ redirection.stream) →
    after.table.get? descriptor = before.table.get? descriptor

variable {redirection : Entry.Redirection} {redirections : List Entry.Redirection}
variable {before middle after desk : Desk α}

theorem fitted_nil (desk : Desk α) : Fitted [] desk desk :=
  ⟨(List.append_nil desk.openings).symm, nofun, fun _ _ => rfl⟩

/-- A stream was given the file that was opened last. -/
theorem fitted_singleton
    (leads : ∀ descriptor, after.table.get? descriptor =
      if descriptor = redirection.stream then some (.opened before.openings.length)
      else before.table.get? descriptor)
    (openings : after.openings = before.openings ++ [(redirection.file, redirection.access)]) :
    Fitted [redirection] before after := by
  refine ⟨openings, List.forall_mem_singleton.2 ?_, fun descriptor other => ?_⟩
  · refine ⟨before.openings.length, Nat.le_refl _, ?_, fun descriptor => ?_⟩
    · rw [openings, List.getElem?_concat_length]
    · rw [leads descriptor]
      by_cases there : descriptor = redirection.stream
      · rw [if_pos there]
        exact iff_of_true rfl there
      · rw [if_neg there]
        refine iff_of_false (fun found => ?_) there
        exact absurd (before.numbered _ _ found) (Nat.lt_irrefl _)
  · rw [leads descriptor, if_neg (other redirection (List.mem_singleton_self _))]

/-- One redirection more, for another stream. -/
theorem Fitted.concat (early : Fitted redirections before middle)
    (late : Fitted [redirection] middle after)
    (apart : ∀ earlier ∈ redirections, earlier.stream ≠ redirection.stream) :
    Fitted (redirections ++ [redirection]) before after := by
  have longer : before.openings.length ≤ middle.openings.length := by
    rw [early.openings, List.length_append]
    exact Nat.le_add_right _ _
  have stays (descriptor : Descriptor) (other : descriptor ≠ redirection.stream) :
      after.table.get? descriptor = middle.table.get? descriptor :=
    late.others descriptor (List.forall_mem_singleton.2 other)
  refine ⟨?_, List.forall_mem_append.2 ⟨fun earlier mem => ?_, ?_⟩, fun descriptor other => ?_⟩
  · rw [late.openings, early.openings, List.append_assoc, List.map_append]
  · obtain ⟨number, above, made, leads⟩ := early.leads earlier mem
    have below : number < middle.openings.length := (List.getElem?_eq_some_iff.1 made).1
    refine ⟨number, above, ?_, fun descriptor => ?_⟩
    · rw [late.openings, List.getElem?_append_left below, made]
    · by_cases there : descriptor = redirection.stream
      · -- This stream leads to a later opening now.
        subst there
        obtain ⟨last, newer, _, sole⟩ := late.leads redirection (List.mem_singleton_self _)
        refine iff_of_false (fun found => ?_) (apart earlier mem).symm
        have same := ((sole redirection.stream).2 rfl).symm.trans found
        cases same
        exact absurd below (Nat.not_lt.2 newer)
      · rw [stays descriptor there, leads descriptor]
  · refine List.forall_mem_singleton.2 ?_
    obtain ⟨number, above, made, leads⟩ := late.leads redirection (List.mem_singleton_self _)
    exact ⟨number, Nat.le_trans longer above, made, leads⟩
  · obtain ⟨earlier, last⟩ := List.forall_mem_append.1 other
    have elsewhere : descriptor ≠ redirection.stream := last redirection (List.mem_singleton_self _)
    rw [stays descriptor elsewhere, early.others descriptor earlier]

end Desk

namespace Entry

open Desk

variable {α : Type} {redirection : Redirection} {trace : Trace} {result : Except Errno Unit}
variable {desk after start : Desk α}

/-! ## One stream -/

/-- A file has taken the place of a stream when no call has failed, and only then. -/
theorem Rebinds.ok_iff (rebinds : Rebinds redirection trace result) :
    result = .ok () ↔ ∀ event ∈ trace, errno? event = none := by
  cases rebinds with
  | refused errno => simp [errno?]
  | inPlace => simp [errno?]
  | stuck errno other => simp [errno?]
  | moved result other => rcases result with errno | done <;> simp [errno?]

/-- Nothing else is asked when the file is refused. -/
theorem Rebinds.of_refused {errno : Errno} (rebinds : Rebinds redirection trace result)
    (refused : ⟨.openFile redirection.file redirection.access, .error errno⟩ ∈ trace) :
    trace = [⟨.openFile redirection.file redirection.access, .error errno⟩] ∧
      result = .error errno := by
  cases rebinds with
  | refused other =>
      cases List.mem_singleton.1 refused
      exact ⟨rfl, rfl⟩
  | inPlace => simp at refused
  | stuck other elsewhere => simp at refused
  | moved result elsewhere => simp at refused

/-- The stream's own number is taken as it is; another one is given back after it was duplicated. -/
theorem Rebinds.fitted (rebinds : Rebinds redirection trace (.ok ()))
    (answered : Answered Desk.Answers desk trace after) : Fitted [redirection] desk after := by
  cases rebinds with
  | inPlace =>
      obtain ⟨_, rfl⟩ := Answers.of_opened (answered_singleton.1 answered)
      exact fitted_singleton (desk.get?_add _ · _ _) rfl
  | @moved opened _ elsewhere =>
      cases answered with
      | cons made answered =>
          obtain ⟨lowest, rfl⟩ := Answers.of_opened made
          cases answered with
          | cons duplicated answered =>
              obtain rfl := Answers.of_duplicated duplicated
              obtain rfl := Answers.of_closed (answered_singleton.1 answered)
              have there : (desk.add opened redirection.file redirection.access).table.get? opened =
                  some (.opened desk.openings.length) := by simp
              refine fitted_singleton (fun asked => ?_) rfl
              rw [get?_drop, get?_copy _ there, get?_add]
              by_cases gone : asked = opened
              · subst gone
                rw [if_pos rfl, if_neg elsewhere, lowest.free]
              · rw [if_neg gone, if_neg gone]

/-- Every call of a redirection can succeed, whatever the table is. -/
theorem exists_rebinds (redirection : Redirection) (desk : Desk α) :
    ∃ trace after, Rebinds redirection trace (.ok ()) ∧ Answered Desk.Answers desk trace after := by
  obtain ⟨opened, lowest⟩ : ∃ opened, desk.table.Lowest opened :=
    ⟨_, desk.table.lowest_lowestFree⟩
  have made : Desk.Answers (.openFile redirection.file redirection.access) desk (.ok opened)
      (desk.add opened redirection.file redirection.access) := .inl ⟨opened, lowest, rfl, rfl⟩
  by_cases inPlace : opened = redirection.stream
  · subst inPlace
    exact ⟨_, _, .inPlace, answered_singleton.2 made⟩
  · have there : (desk.add opened redirection.file redirection.access).table.get? opened =
        some (.opened desk.openings.length) := by simp
    have duplicated : Desk.Answers (.duplicate opened redirection.stream)
        (desk.add opened redirection.file redirection.access) (.ok ())
        ((desk.add opened redirection.file redirection.access).copy opened redirection.stream) := by
      refine .inl ⟨?_, rfl, rfl⟩
      rw [there]
      rfl
    have closed : Desk.Answers (.close opened)
        ((desk.add opened redirection.file redirection.access).copy opened redirection.stream) (.ok ())
        (((desk.add opened redirection.file redirection.access).copy opened redirection.stream).drop
          opened) := by
      refine .inl ⟨?_, rfl, rfl⟩
      rw [get?_copy _ there, if_neg inPlace, there]
      rfl
    exact ⟨_, _, .moved (.ok ()) inPlace, .cons made (.cons duplicated (answered_singleton.2 closed))⟩

/-- Give the stream of a redirection its file. -/
abbrev Redirection.rebind (redirection : Redirection) : Entry (Except Errno Unit) :=
  Entry.rebind redirection.file redirection.access redirection.stream

theorem runs_rebind_iff : Runs Desk.Answers redirection.rebind desk trace result after ↔
    Rebinds redirection trace result ∧ Answered Desk.Answers desk trace after := by
  rw [runs_iff_freely, runs_rebind]

/-! ## On the way to the program -/

/-- The child executes its program, or leaves for want of one that can be executed. -/
def AtProgram : Entry Int → Prop
  | .ask call _ _ => call.IsExecute
  | .done code => code ≠ exitSetupFailed

/-- A child that comes to its program does so with such a desk. -/
def Arrives (holds : Desk α → Prop) (steps : Entry Int) (desk : Desk α) : Prop :=
  Heeds Desk.Answers (fun call state => call.IsExecute → holds state) steps
    (fun code last => code ≠ exitSetupFailed → holds last) desk

section Arriving

variable {holds : Desk α → Prop} {steps : Entry Int}

theorem Arrives.reaches (arrives : Arrives holds steps desk)
    {events : Trace} {point : Entry Int} {last : Desk α}
    (reached : Reaches Desk.Answers steps desk events point last) (arrived : AtProgram point) :
    holds last := by
  have ordered := arrives events point last reached
  cases point with
  | done code => exact ordered arrived
  | ask call again next => exact ordered arrived

/-- No program is executed in between, so it does not matter what holds there. -/
theorem rebind_heeds (redirection : Redirection) (desk : Desk α) :
    Heeds Desk.Answers (fun call state => call.IsExecute → holds state) redirection.rebind
      (fun result after => result = .ok () → Fitted [redirection] desk after) desk := by
  intro trace left final reached
  cases left with
  | done result =>
      rintro rfl
      obtain ⟨rebinds, answered⟩ := runs_rebind_iff.1 reached.runs
      exact rebinds.fitted answered
  | ask call again next =>
      intro executes
      have other : ¬ call.IsExecute := ((rebind_asks _ _ _).reaches reached).1.1
      exact absurd executes other

/-- The desk stays as it is while a report is written. -/
theorem reporting_heeds (parts : List Bytes) (desk : Desk α) :
    Heeds Desk.Answers (fun call state => call.IsExecute → holds state) (report parts)
      (fun _ after => after = desk) desk :=
  report_heeds (fun _ _ executes => executes.elim) (fun _ _ _ _ written => written) parts desk

theorem refuse_arrives (subject : Bytes) (errno : Errno) :
    Arrives holds (refuse subject errno) desk := by
  unfold refuse
  refine .bind ((reporting_heeds _ desk).imp fun _ _ _ => ?_)
  exact heeds_pure fun other => absurd rfl other

/-- What follows a redirection finds one redirection more. -/
theorem redirect_arrives {redirections : List Redirection} (fitted : Fitted redirections start desk)
    {file : Option NulFree} {access : Access} {stream : Descriptor}
    (apart : ∀ earlier ∈ redirections, earlier.stream ≠ stream)
    (follows : ∀ after,
      Fitted (redirections ++ (file.map fun file => ⟨file, access, stream⟩).toList) start after →
        Arrives holds steps after) :
    Arrives holds (redirect file access stream steps) desk := by
  cases file with
  | none =>
      refine follows desk ?_
      rwa [Option.map_none, Option.toList_none, List.append_nil]
  | some file =>
      unfold redirect
      refine .bind ((rebind_heeds ⟨file, access, stream⟩ desk).imp fun result after fits => ?_)
      cases result with
      | error errno => exact refuse_arrives _ errno
      | ok done => exact follows after (fitted.concat (fits rfl) apart)

theorem handOver_arrives (image : Image) (ready : holds desk) :
    Arrives holds (handOver image) desk := by
  unfold handOver
  split
  · refine .bind ((reporting_heeds _ desk).imp ?_)
    rintro _ after rfl
    exact heeds_pure fun _ => ready
  · refine .bind (heeds_request (fun _ => ready) fun errno after failed => ?_)
    obtain rfl : after = desk := failed
    refine .bind ((reporting_heeds _ after).imp ?_)
    rintro _ last rfl
    exact heeds_pure fun _ => ready

/-- The streams of a child are in place when it comes to its program. -/
theorem enter_arrives (image : Image) (desk : Desk α) :
    Arrives (Fitted (redirections image) desk) (enter image) desk := by
  unfold enter
  refine .bind (heeds_request (fun executes => executes.elim) fun answer after entered => ?_)
  obtain rfl : after = desk := entered
  cases answer with
  | error errno => exact refuse_arrives _ errno
  | ok done =>
      refine redirect_arrives (fitted_nil after) nofun fun middle input => ?_
      refine redirect_arrives input ?_ fun last both => handOver_arrives image both
      -- Only the input comes before the output.
      cases image.stdin <;> simp

end Arriving

/-! ## Every desk -/

/-- What becomes of a desk when files are opened in the place of streams. -/
structure Restreams (desk : Desk α) : Prop where
  /-- The stream is taken over when no call has failed, and only then. -/
  succeeds : ∀ (redirection : Redirection) trace result after,
    Runs Desk.Answers redirection.rebind desk trace result after →
      (result = .ok () ↔ ∀ event ∈ trace, errno? event = none) ∧
        (result = .ok () → Fitted [redirection] desk after)
  refused : ∀ (redirection : Redirection) trace result after errno,
    Runs Desk.Answers redirection.rebind desk trace result after →
      ⟨.openFile redirection.file redirection.access, .error errno⟩ ∈ trace →
        result = .error errno ∧ after = desk
  possible : ∀ redirection : Redirection, ∃ trace after,
    Runs Desk.Answers redirection.rebind desk trace (.ok ()) after
  /-- Two streams, one after the other. -/
  both : ∀ (first second : Redirection) early late middle after, first.stream ≠ second.stream →
    Runs Desk.Answers first.rebind desk early (.ok ()) middle →
      Runs Desk.Answers second.rebind middle late (.ok ()) after → Fitted [first, second] desk after
  /-- The input and then the output, as far as the image names files for them. -/
  entered : ∀ image trace point after, Reaches Desk.Answers (enter image) desk trace point after →
    AtProgram point → Fitted (redirections image) desk after

/-- Whatever descriptors are open, the streams among them or not, a file that is opened for a stream
takes its place and nothing else changes; so do one for the input and then one for the output. -/
theorem rebinds_from_any_desk (desk : Desk α) : Restreams desk := by
  refine ⟨fun redirection trace result after run => ?_,
    fun redirection trace result after errno run refused => ?_, fun redirection => ?_,
    fun first second early late middle after apart run laterRun => ?_,
    fun image trace point after reached arrived => (enter_arrives image desk).reaches reached arrived⟩
  · obtain ⟨rebinds, answered⟩ := runs_rebind_iff.1 run
    refine ⟨rebinds.ok_iff, ?_⟩
    rintro rfl
    exact rebinds.fitted answered
  · obtain ⟨rebinds, answered⟩ := runs_rebind_iff.1 run
    obtain ⟨rfl, failed⟩ := rebinds.of_refused refused
    rcases answered_singleton.1 answered with ⟨_, _, opened, _⟩ | ⟨_, unchanged⟩
    · cases opened
    · exact ⟨failed, unchanged⟩
  · obtain ⟨trace, after, rebinds, answered⟩ := exists_rebinds redirection desk
    exact ⟨trace, after, runs_rebind_iff.2 ⟨rebinds, answered⟩⟩
  · obtain ⟨rebinds, answered⟩ := runs_rebind_iff.1 run
    obtain ⟨laterRebinds, laterAnswered⟩ := runs_rebind_iff.1 laterRun
    have here : Fitted [first] desk middle := rebinds.fitted answered
    exact here.concat (laterRebinds.fitted laterAnswered) (List.forall_mem_singleton.2 apart)

end Entry

/-- Answers that refuse nothing, while no program can be executed. -/
def Desk.serve {α : Type} : (call : Entry.Call) → Desk α → Option (call.Answer × Desk α)
  | .enterDirectory _, desk => some (.ok (), desk)
  | .openFile file access, desk =>
      let opened := desk.table.lowestFree 0
      some (.ok opened, desk.add opened file access)
  | .duplicate source target, desk =>
      if (desk.table.get? source).isSome then some (.ok (), desk.copy source target)
      else some (.error .EBADF, desk)
  | .close descriptor, desk =>
      if (desk.table.get? descriptor).isSome then some (.ok (), desk.drop descriptor)
      else some (.error .EBADF, desk)
  | .execute _ _ _, desk => some (.ENOENT, desk)
  | .write _ bytes, desk => some (.ok bytes.length, desk)

theorem Desk.answers_serve {α : Type} (call : Entry.Call) (desk : Desk α) (answer : call.Answer)
    (after : Desk α) (answered : desk.serve call = some (answer, after)) :
    Desk.Answers call desk answer after := by
  cases call with
  | openFile file access =>
      cases answered
      exact .inl ⟨_, desk.table.lowest_lowestFree, rfl, rfl⟩
  | duplicate source target =>
      rw [Desk.serve] at answered
      split at answered
      · next there =>
          cases answered
          exact .inl ⟨there, rfl, rfl⟩
      · cases answered
        exact .inr ⟨_, rfl⟩
  | close descriptor =>
      rw [Desk.serve] at answered
      split at answered
      · next there =>
          cases answered
          exact .inl ⟨there, rfl, rfl⟩
      · cases answered
        exact .inr ⟨_, rfl⟩
  | _ =>
      cases answered
      rfl

/-- The output is closed, so the file for the input is opened under its number first. -/
def Desk.lopsided : Desk Nat where
  table := (Descriptors.empty.set 2 (.kept 12)).set 0 (.kept 10)
  openings := []
  numbered := by
    intro descriptor number leads
    rw [Descriptors.get?_set, Descriptors.get?_set, Descriptors.get?_empty] at leads
    split_ifs at leads <;> cases leads

theorem Entry.rebinds_from_any_desk_lopsided :
    let image : Image := ⟨"sort", none, [], ⟨⟨Bytes.ofText "/", by decide +kernel⟩, []⟩,
      some ⟨Bytes.ofText "unsorted", by decide +kernel⟩,
      some ⟨Bytes.ofText "sorted", by decide +kernel⟩⟩
    ∃ trace after, Runs Desk.Answers (enter image) Desk.lopsided trace 127 after ∧
      (List.range 4).map after.table.get? =
        [some (.opened 0), some (.opened 1), some (.kept 12), none] ∧
      Desk.Fitted (redirections image) Desk.lopsided after := by
  intro image
  have ran : ((enter image).runWith Desk.serve 1 Desk.lopsided).map
      (fun last => (last.1, (List.range 4).map last.2.table.get?)) =
        some (127, [some (.opened 0), some (.opened 1), some (.kept 12), none]) := by
    decide +kernel
  obtain ⟨⟨code, after⟩, ran, summary⟩ := Option.map_eq_some_iff.1 ran
  obtain ⟨rfl, streams⟩ := Prod.mk.inj summary
  obtain ⟨trace, run⟩ := Program.runs_of_runWith Desk.answers_serve ran
  have left : AtProgram (.done 127) := by
    change (127 : Int) ≠ exitSetupFailed
    decide
  have fitted := (rebinds_from_any_desk Desk.lopsided).entered image trace _ after run.reaches left
  exact ⟨trace, after, run, streams, fitted⟩

end LineShell
