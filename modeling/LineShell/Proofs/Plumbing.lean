/-
# LineShell.Proofs.Plumbing -- the descriptors of the shell and of both stages of a pipe

A pipe has two ends, and the reader waits for ever when one descriptor too many
leads to the end that is written to.  Three processes hold descriptors: the shell
makes the pipe, starts both stages with copies of its table, and closes both ends;
each stage moves its own end into place, drops the other one, and then opens the
files that it is redirected to, for which the system may hand out numbers that have
just become free.

`Plant` is the shell's table together with the stages that were started, each with
the table that it was started with.  `Plant.Serves` are the answers to the shell;
the answers to a stage are `Table.Answers`.

`Launch.pipe_leaks_nothing` follows all three.  Whenever the shell waits its table is
the one from before the pipe.  A stage is at its program with the table from before,
except for its end of the pipe and the files that its streams are redirected to.  So
the only descriptor that leads to the end for writing is 1 of the left stage, and the
only one that leads to the end for reading is 0 of the right stage.
-/
import LineShell.Launch
import LineShell.Proofs.Asking
import LineShell.Proofs.Except
import LineShell.Proofs.Tables

namespace LineShell

set_option autoImplicit false

variable {α : Type}

/-- The shell's descriptors, and every stage that was started with the descriptors it was given. -/
structure Plant (α : Type) where
  table : Table α
  stages : List (Child × Table α)

namespace Plant

/-- The answers to the shell.  Making a pipe and starting a child may fail; closing cannot. -/
def Serves : (call : Request) → Plant α → call.Answer → Plant α → Prop
  | .pipe, before, answer, after =>
      (∃ ends : Request.Ends, answer = .ok ends ∧ before.table.Lowest ends.read ∧
        (before.table.set ends.read .reading).Lowest ends.write ∧
        after = { before with
          table := (before.table.set ends.read .reading).set ends.write .writing }) ∨
      (∃ errno, answer = .error errno) ∧ after = before
  | .close descriptor, before, _, after =>
      after = { before with table := before.table.erase descriptor }
  | .fork child, before, answer, after =>
      (∃ pid, answer = .ok pid ∧
        after = { before with stages := before.stages ++ [(child, before.table)] }) ∨
      (∃ errno, answer = .error errno) ∧ after = before
  | .pathExists _, before, _, after => after = before
  | .canonicalize _, before, _, after => after = before
  | .isDirectory _, before, _, after => after = before
  | .wait _, before, _, after => after = before
  | .poll _, before, _, after => after = before

end Plant

/-! ## Stages -/

/-- The table that the left stage is to have at its program. -/
def Table.ofLeft (before : Table α) (redirects : Redirects) : Table α :=
  Table.entered (before.set 1 .writing) redirects

/-- The table that the right stage is to have at its program. -/
def Table.ofRight (before : Table α) (redirects : Redirects) : Table α :=
  Table.entered (before.set 0 .reading) redirects

/-- A child that was started with a table comes to its program with the table `reached`, or leaves
with it because it has no program. -/
def Child.Arrives (refuses : Errno → Prop) (child : Child) (start reached : Table α) : Prop :=
  (∃ trace program arguments environment again next,
    Program.Reaches (Table.Answers refuses) child.steps start trace
      (.ask (.execute program arguments environment) again next) reached) ∨
    ∃ trace code, Program.Runs (Table.Answers refuses) child.steps start trace code reached ∧
      code ≠ Entry.exitSetupFailed

/-- A child of a command, started with a table, arrives with the expected one, and gives up before
only because something was refused. -/
structure Stage (refuses : Errno → Prop) (command : Command) (expected : Table α) (child : Child)
    (start : Table α) : Prop where
  name : child.image.name = command.name
  arrives : ∀ reached, child.Arrives refuses start reached → reached.Same expected
  fails : ∀ trace after,
    Program.Runs (Table.Answers refuses) child.steps start trace Entry.exitSetupFailed after →
      ∃ errno, refuses errno

/-- The stages so far: at most the left one and then the right one. -/
def Staged (refuses : Errno → Prop) (before : Table α) (left right : Command) :
    List (Child × Table α) → Prop
  | [] => True
  | [first] => Stage refuses left (before.ofLeft left.redirects) first.1 first.2
  | [first, second] =>
      Stage refuses left (before.ofLeft left.redirects) first.1 first.2 ∧
        Stage refuses right (before.ofRight right.redirects) second.1 second.2
  | _ => False

/-- A table that holds both ends of a pipe: `unused` is the one that a stage drops, and `used`, which
leads to `outlet`, the one that it moves to a stream. -/
structure HoldsEnds (before table : Table α) (unused used : Descriptor) (outlet : Outlet α) : Prop where
  unusedOpen : (table.get? unused).isSome = true
  usedOpen : table.get? used = some outlet
  apart : used ≠ unused
  unusedFree : before.get? unused = none
  usedFree : before.get? used = none
  others : ∀ asked, asked ≠ unused → asked ≠ used → table.get? asked = before.get? asked
  unusedHigh : 1 < unused
  usedHigh : 1 < used

section Stages

variable {refuses : Errno → Prop} {before table : Table α} {unused used : Descriptor}
variable {outlet : Outlet α}

/-- The ends of a new pipe have numbers of their own when the standard streams are open. -/
theorem holds_ends {ends : Request.Ends}
    (standard : ∀ descriptor < 3, (before.get? descriptor).isSome = true)
    (read : before.Lowest ends.read) (write : (before.set ends.read .reading).Lowest ends.write)
    (made : table = (before.set ends.read .reading).set ends.write .writing) :
    HoldsEnds before table ends.read ends.write .writing ∧
      HoldsEnds before table ends.write ends.read .reading := by
  have apart : ends.write ≠ ends.read := by
    intro same
    have free := write.free
    rw [Descriptors.get?_set, if_pos same] at free
    simp at free
  have writeFree : before.get? ends.write = none := by
    have free := write.free
    rwa [Descriptors.get?_set, if_neg apart] at free
  have high : ∀ descriptor : Descriptor, before.get? descriptor = none → 1 < descriptor := by
    intro descriptor free
    by_contra low
    have below : descriptor < 3 := Nat.lt_of_le_of_lt (Nat.not_lt.1 low) (by decide)
    have taken := standard descriptor below
    rw [free] at taken
    simp at taken
  have writeOpen : table.get? ends.write = some .writing := by
    rw [made, Descriptors.get?_set, if_pos rfl]
  have readOpen : table.get? ends.read = some .reading := by
    rw [made, Descriptors.get?_set, if_neg apart.symm, Descriptors.get?_set, if_pos rfl]
  have others : ∀ asked, asked ≠ ends.read → asked ≠ ends.write →
      table.get? asked = before.get? asked := by
    intro asked notRead notWrite
    rw [made, Descriptors.get?_set, if_neg notWrite, Descriptors.get?_set, if_neg notRead]
  have readHigh := high _ read.free
  have writeHigh := high _ writeFree
  constructor
  · exact ⟨by rw [readOpen]; rfl, writeOpen, apart, read.free, writeFree, others, readHigh, writeHigh⟩
  · exact ⟨by rw [writeOpen]; rfl, readOpen, apart.symm, writeFree, read.free,
      fun asked notWrite notRead => others asked notRead notWrite, writeHigh, readHigh⟩

/-- Dropping both ends gives the table from before. -/
theorem HoldsEnds.dropped (holds : HoldsEnds before table unused used outlet) :
    ((table.erase unused).erase used).Same before := by
  intro asked
  rw [Descriptors.get?_erase, Descriptors.get?_erase]
  by_cases second : asked = used
  · rw [if_pos second, second, holds.usedFree]
  · by_cases first : asked = unused
    · rw [if_neg second, if_pos first, first, holds.unusedFree]
    · rw [if_neg second, if_neg first, holds.others asked first second]

/-- Moving one end to a stream and dropping the other one changes the stream alone. -/
theorem HoldsEnds.moved (holds : HoldsEnds before table unused used outlet) {stream : Descriptor}
    (low : stream ≤ 1) :
    (((table.erase unused).set stream outlet).erase used).Same (before.set stream outlet) := by
  have notUsed : used ≠ stream := Nat.ne_of_gt (Nat.lt_of_le_of_lt low holds.usedHigh)
  have notUnused : stream ≠ unused := Nat.ne_of_lt (Nat.lt_of_le_of_lt low holds.unusedHigh)
  intro asked
  simp only [Descriptors.get?_erase, Descriptors.get?_set]
  by_cases second : asked = used
  · rw [if_pos second, second, if_neg notUsed, holds.usedFree]
  · rw [if_neg second]
    by_cases moved : asked = stream
    · rw [if_pos moved, if_pos moved]
    · rw [if_neg moved, if_neg moved]
      by_cases first : asked = unused
      · rw [if_pos first, first, holds.unusedFree]
      · rw [if_neg first, holds.others asked first second]

/-- An image redirects what its command redirects. -/
theorem streams_of_made {command : Command} {program : Option Path} {context : Context}
    {image : Image} (made : image.Made command program context) :
    Table.streamsOf image = command.redirects := by
  rw [Table.streamsOf, made.stdin, made.stdout]

/-- A stage that is started while the shell holds both ends. -/
theorem HoldsEnds.stage (holds : HoldsEnds before table unused used outlet) {stream : Descriptor}
    (low : stream ≤ 1) {command : Command} {program : Option Path} {context : Context} {image : Image}
    (prepared : Image.prepare command program context = .ok image) :
    Stage refuses command (Table.entered (before.set stream outlet) command.redirects)
      ⟨image, some ⟨unused, used, stream⟩⟩ table := by
  have made := Image.made_of_prepare prepared
  have notUsed : used ≠ stream := Nat.ne_of_gt (Nat.lt_of_le_of_lt low holds.usedHigh)
  have heeds : Program.Heeds (Table.Answers refuses)
      (Table.ReadyFor (Table.entered (before.set stream outlet) command.redirects))
      (Child.steps ⟨image, some ⟨unused, used, stream⟩⟩)
      (Table.Leaves refuses (Table.entered (before.set stream outlet) command.redirects)) table := by
    unfold Child.steps
    refine .bind ((Table.wire_heeds holds.unusedOpen holds.usedOpen holds.apart notUsed).imp ?_)
    rintro _ after ⟨rfl, rfl⟩
    exact Table.enter_heeds (holds.moved low) (by rw [streams_of_made made])
  refine ⟨made.name, ?_, ?_⟩
  · rintro reached (⟨trace, _, _, _, _, _, arrived⟩ | ⟨trace, code, ran, other⟩)
    · exact heeds trace _ reached arrived
    · rcases heeds trace _ reached ran.reaches with ⟨_, same⟩ | ⟨failed, _⟩
      · exact same
      · exact absurd failed other
  · intro trace after ran
    rcases heeds trace _ after ran.reaches with ⟨other, _⟩ | ⟨_, refused⟩
    · exact absurd rfl other
    · exact refused

end Stages

/-! ## The shell -/

/-- The shell starts the stages that it should, and waits for them with the table from before. -/
def Plant.Permits (refuses : Errno → Prop) (before : Table α) (left right : Command) (call : Request)
    (plant : Plant α) : Prop :=
  Staged refuses before left right plant.stages ∧
    ∀ pid, call = .wait pid → plant.stages ≠ [] ∧ plant.table.Same before

/-- The shell ends with the table from before, and with an exit code only if both stages were
started. -/
def Plant.Restored (refuses : Errno → Prop) (before : Table α) (left right : Command)
    (result : Except LaunchError Int) (plant : Plant α) : Prop :=
  Staged refuses before left right plant.stages ∧ plant.table.Same before ∧
    ∀ code, result = .ok code → plant.stages.length = 2

section Shell

variable {refuses : Errno → Prop} {before : Table α} {left right : Command} {plant : Plant α}

/-- Looking a name up changes nothing. -/
theorem locate_heeds (staged : Staged refuses before left right plant.stages) (name : String)
    (surroundings : Surroundings) :
    Program.Heeds Plant.Serves (Plant.Permits refuses before left right)
      (Shell.locate name surroundings) (fun _ after => after = plant) plant := by
  refine (locate_asks name surroundings).heeds rfl ?_ ?_
  · rintro call _ answer after test rfl served
    cases call with
    | pathExists path => exact served
    | _ => exact absurd test not_false
  · rintro call _ test rfl
    refine ⟨staged, ?_⟩
    rintro pid rfl
    exact absurd test not_false

theorem await_heeds {stages : List (Child × Table α)} {table : Table α}
    (staged : Staged refuses before left right stages) (some : stages ≠ []) (same : table.Same before)
    (pid : Pid) :
    Program.Heeds Plant.Serves (Plant.Permits refuses before left right) (Job.await pid)
      (fun _ after => after = ⟨table, stages⟩) ⟨table, stages⟩ := by
  refine (await_asks pid).heeds rfl ?_ ?_
  · rintro _ _ answer after rfl rfl served
    exact served
  · rintro _ _ rfl rfl
    exact ⟨staged, fun _ _ => ⟨some, same⟩⟩

theorem spawn_heeds (staged : Staged refuses before left right plant.stages) (child : Child) :
    Program.Heeds Plant.Serves (Plant.Permits refuses before left right) (Launch.spawn child false)
      (fun result after =>
        (∃ job, result = .ok job ∧
          after = { plant with stages := plant.stages ++ [(child, plant.table)] }) ∨
        ∃ errno, result = .error errno ∧ after = plant) plant := by
  unfold Launch.spawn
  refine .bind (Program.heeds_request ⟨staged, nofun⟩ fun answer after served => ?_)
  rcases served with ⟨pid, rfl, rfl⟩ | ⟨⟨errno, rfl⟩, rfl⟩
  · exact Program.heeds_pure (.inl ⟨_, rfl, rfl⟩)
  · exact Program.heeds_pure (.inr ⟨errno, rfl, rfl⟩)

theorem drop_heeds {stages : List (Child × Table α)} (staged : Staged refuses before left right stages)
    (table : Table α) (descriptor : Descriptor) :
    Program.Heeds Plant.Serves (Plant.Permits refuses before left right)
      (Shell.system (.close descriptor)) (fun _ after => after = ⟨table.erase descriptor, stages⟩)
      ⟨table, stages⟩ :=
  Program.heeds_request ⟨staged, nofun⟩ fun _ _ served => served

/-- The shell that holds both ends starts the stages, drops the ends and waits. -/
theorem stages_heeds {ends : Request.Ends} {first second : Image}
    (none : plant.stages = [])
    (writes : HoldsEnds before plant.table ends.read ends.write .writing)
    (reads : HoldsEnds before plant.table ends.write ends.read .reading)
    (leftStage : Stage refuses left (before.ofLeft left.redirects)
      ⟨first, some ⟨ends.read, ends.write, 1⟩⟩ plant.table)
    (rightStage : Stage refuses right (before.ofRight right.redirects)
      ⟨second, some ⟨ends.write, ends.read, 0⟩⟩ plant.table) :
    Program.Heeds Plant.Serves (Plant.Permits refuses before left right)
      (Launch.stages first second ends) (Plant.Restored refuses before left right) plant := by
  unfold Launch.stages
  have staged : Staged refuses before left right plant.stages := by
    rw [none]
    trivial
  refine .bind ((spawn_heeds staged _).imp ?_)
  rintro _ middle (⟨job, rfl, rfl⟩ | ⟨errno, rfl, rfl⟩)
  · have staged : Staged refuses before left right
        (plant.stages ++ [(⟨first, some ⟨ends.read, ends.write, 1⟩⟩, plant.table)]) := by
      rw [none]
      exact leftStage
    refine .bind ((spawn_heeds staged _).imp ?_)
    rintro result middle started
    -- Both stages are there, or the right one could not be started.
    obtain ⟨staged, same, some, both⟩ :
        Staged refuses before left right middle.stages ∧ middle.table = plant.table ∧
          middle.stages ≠ [] ∧ ∀ job, result = .ok job → middle.stages.length = 2 := by
      rcases started with ⟨_, rfl, rfl⟩ | ⟨_, rfl, rfl⟩
      · rw [none]
        exact ⟨⟨leftStage, rightStage⟩, rfl, nofun, fun _ _ => rfl⟩
      · rw [none]
        exact ⟨leftStage, rfl, nofun, nofun⟩
    refine .bind ((drop_heeds staged _ _).imp ?_)
    rintro _ _ rfl
    refine .bind ((drop_heeds staged _ _).imp ?_)
    rintro _ _ rfl
    have dropped : ((middle.table.erase ends.read).erase ends.write).Same before := by
      rw [same]
      exact writes.dropped
    refine .bind ((await_heeds staged some dropped _).imp ?_)
    rintro _ _ rfl
    split
    · exact Program.heeds_pure ⟨staged, dropped, nofun⟩
    · refine .bind ((await_heeds staged some dropped _).imp ?_)
      rintro _ _ rfl
      split
      · exact Program.heeds_pure ⟨staged, dropped, nofun⟩
      · exact Program.heeds_pure ⟨staged, dropped, fun _ _ => both _ rfl⟩
  · refine .bind ((drop_heeds staged _ _).imp ?_)
    rintro _ _ rfl
    refine .bind ((drop_heeds staged _ _).imp ?_)
    rintro _ _ rfl
    exact Program.heeds_pure ⟨staged, reads.dropped, nofun⟩

/-- A pipe leaves the shell's table as it was. -/
theorem pipe_heeds (standard : ∀ descriptor < 3, (before.get? descriptor).isSome = true)
    (surroundings : Surroundings) :
    Program.Heeds Plant.Serves (Plant.Permits refuses before left right)
      (Launch.pipe surroundings left right) (Plant.Restored refuses before left right)
      ⟨before, []⟩ := by
  have nothing : Staged refuses before left right (⟨before, []⟩ : Plant α).stages := trivial
  unfold Launch.pipe
  split
  · exact Program.heeds_pure ⟨nothing, .refl before, nofun⟩
  · refine .bind ((locate_heeds nothing _ _).imp ?_)
    rintro leftFound _ rfl
    refine .bind ((locate_heeds nothing _ _).imp ?_)
    rintro rightFound _ rfl
    split
    · exact Program.heeds_pure ⟨nothing, .refl before, nofun⟩
    · next first second prepared =>
        simp only [Launch.images, bind_eq_ok_iff] at prepared
        obtain ⟨_, leftPrepared, _, rightPrepared, made⟩ := prepared
        cases made
        refine .bind (Program.heeds_request ⟨nothing, nofun⟩ fun answer after served => ?_)
        rcases served with ⟨ends, rfl, read, write, rfl⟩ | ⟨⟨errno, rfl⟩, rfl⟩
        · obtain ⟨writes, reads⟩ := holds_ends standard read write rfl
          exact stages_heeds rfl writes reads (writes.stage (by decide) leftPrepared)
            (reads.stage (by decide) rightPrepared)
        · exact Program.heeds_pure ⟨nothing, .refl before, nofun⟩

end Shell

/-! ## No descriptor too many -/

/-- The outlet is an end of the pipe. -/
def Outlet.IsEnd : Outlet α → Prop
  | .reading => True
  | .writing => True
  | _ => False

/-- The descriptor that a direction is for. -/
def Direction.stream : Direction → Descriptor
  | .input => 0
  | .output => 1

theorem inherited_ne_end (table : Descriptors α) {pipeEnd : Outlet α} (isEnd : pipeEnd.IsEnd)
    (descriptor : Descriptor) : (Table.inherited table).get? descriptor ≠ some pipeEnd := by
  rw [Table.get?_inherited]
  intro leads
  obtain ⟨file, _, rfl⟩ := Option.map_eq_some_iff.1 leads
  exact isEnd

/-- Redirecting a stream leaves the pipe on the other descriptors alone. -/
theorem get?_redirected_eq_end_iff (table : Table α) {pipeEnd : Outlet α} (isEnd : pipeEnd.IsEnd)
    (stream : Descriptor) (file : Option Path) (access : Entry.Access) (descriptor : Descriptor) :
    (table.redirected stream file access).get? descriptor = some pipeEnd ↔
      table.get? descriptor = some pipeEnd ∧ (descriptor = stream → file = none) := by
  rw [Table.get?_redirected]
  by_cases redirected : descriptor = stream
  · rw [if_pos redirected]
    cases file with
    | none => simp
    | some path =>
        have notOpened : Outlet.opened path access ≠ pipeEnd := by
          rintro rfl
          exact isEnd
        simp [redirected, notOpened]
  · rw [if_neg redirected]
    simp [redirected]

/-- A stream that was given an outlet is the only descriptor that leads to an end of the pipe, and
only if it was not redirected. -/
theorem get?_entered_eq_end_iff (table : Descriptors α) {outlet pipeEnd : Outlet α}
    (isEnd : pipeEnd.IsEnd) (direction : Direction) (redirects : Redirects) (descriptor : Descriptor) :
    (Table.entered ((Table.inherited table).set direction.stream outlet) redirects).get? descriptor =
        some pipeEnd ↔
      outlet = pipeEnd ∧ descriptor = direction.stream ∧ redirects.target direction = none := by
  have given : ((Table.inherited table).set direction.stream outlet).get? descriptor =
      some pipeEnd ↔ descriptor = direction.stream ∧ outlet = pipeEnd := by
    rw [Descriptors.get?_set]
    by_cases there : descriptor = direction.stream
    · rw [if_pos there]
      simp [there]
    · rw [if_neg there]
      simp only [there, inherited_ne_end table isEnd descriptor, false_and]
  rw [Table.entered, get?_redirected_eq_end_iff _ isEnd, get?_redirected_eq_end_iff _ isEnd, given]
  constructor
  · rintro ⟨⟨⟨rfl, same⟩, input⟩, output⟩
    refine ⟨same, rfl, ?_⟩
    cases direction with
    | input => exact input rfl
    | output => exact output rfl
  · rintro ⟨same, rfl, free⟩
    refine ⟨⟨⟨rfl, same⟩, ?_⟩, ?_⟩ <;> cases direction <;> simp_all [Direction.stream, Redirects.target]

/-- Which descriptors of the shell, the left stage and the right stage lead to the pipe. -/
structure Sole (left right : Command) (own first second : Table α) : Prop where
  writing : ∀ descriptor, own.get? descriptor ≠ some .writing ∧
    (first.get? descriptor = some .writing ↔ descriptor = 1 ∧ left.redirects.stdout = none) ∧
    second.get? descriptor ≠ some .writing
  reading : ∀ descriptor, own.get? descriptor ≠ some .reading ∧
    first.get? descriptor ≠ some .reading ∧
    (second.get? descriptor = some .reading ↔ descriptor = 0 ∧ right.redirects.stdin = none)

theorem sole_of_same {left right : Command} (table : Descriptors α) {own first second : Table α}
    (restored : own.Same (Table.inherited table))
    (leftSame : first.Same ((Table.inherited table).ofLeft left.redirects))
    (rightSame : second.Same ((Table.inherited table).ofRight right.redirects)) :
    Sole left right own first second := by
  have fromLeft {pipeEnd : Outlet α} (isEnd : pipeEnd.IsEnd) (descriptor : Descriptor) :
      first.get? descriptor = some pipeEnd ↔
        .writing = pipeEnd ∧ descriptor = 1 ∧ left.redirects.stdout = none := by
    rw [leftSame descriptor]
    exact get?_entered_eq_end_iff table isEnd .output left.redirects descriptor
  have fromRight {pipeEnd : Outlet α} (isEnd : pipeEnd.IsEnd) (descriptor : Descriptor) :
      second.get? descriptor = some pipeEnd ↔
        .reading = pipeEnd ∧ descriptor = 0 ∧ right.redirects.stdin = none := by
    rw [rightSame descriptor]
    exact get?_entered_eq_end_iff table isEnd .input right.redirects descriptor
  have writing : (Outlet.writing : Outlet α).IsEnd := trivial
  have reading : (Outlet.reading : Outlet α).IsEnd := trivial
  constructor
  · intro descriptor
    refine ⟨?_, ?_, ?_⟩
    · rw [restored descriptor]
      exact inherited_ne_end table writing descriptor
    · rw [fromLeft writing descriptor]
      exact and_iff_right rfl
    · intro leads
      have same : Outlet.reading = Outlet.writing := ((fromRight writing descriptor).1 leads).1
      cases same
  · intro descriptor
    refine ⟨?_, ?_, ?_⟩
    · rw [restored descriptor]
      exact inherited_ne_end table reading descriptor
    · intro leads
      have same : Outlet.writing = Outlet.reading := ((fromLeft reading descriptor).1 leads).1
      cases same
    · rw [fromRight reading descriptor]
      exact and_iff_right rfl

/-- The shell waits for a stage, or is done with the pipe. -/
def Settled : Shell (Except LaunchError Int) → Prop
  | .ask (.wait _) _ _ => True
  | .ask _ _ _ => False
  | .done _ => True

/-- What holds of the descriptors at a point of a pipe. -/
structure Plumbed (refuses : Errno → Prop) (before : Table α) (left right : Command)
    (point : Shell (Except LaunchError Int)) (plant : Plant α) : Prop where
  /-- The shell waits and ends with the table from before. -/
  own : Settled point → plant.table.Same before
  /-- Each stage that was started arrives with the table that it should have. -/
  stages : Staged refuses before left right plant.stages
  /-- There is a stage to wait for, and there were two if the pipe has a code. -/
  started : ∀ pid again next, point = .ask (.wait pid) again next → plant.stages ≠ []
  both : ∀ code, point = .done (.ok code) → plant.stages.length = 2
  /-- When the shell waits and both stages have arrived, one descriptor leads to each end that is
  not redirected. -/
  sole : Settled point → ∀ first second, plant.stages = [first, second] →
    ∀ leftTable rightTable, first.1.Arrives refuses first.2 leftTable →
      second.1.Arrives refuses second.2 rightTable →
        Sole left right plant.table leftTable rightTable

/-- A pipe leaves no descriptor open that leads to one of its ends, but the two that it is made for,
whatever is redirected, refused or not found. -/
theorem Launch.pipe_leaks_nothing (table : Descriptors α)
    (standard : ∀ descriptor < 3, (table.get? descriptor).isSome = true) (refuses : Errno → Prop)
    (surroundings : Surroundings) (left right : Command)
    {trace : List (Program.Event Request Request.Answer)} {point : Shell (Except LaunchError Int)}
    {plant : Plant α}
    (run : Program.Reaches Plant.Serves (Launch.pipe surroundings left right) ⟨.inherited table, []⟩
      trace point plant) :
    Plumbed refuses (.inherited table) left right point plant := by
  have open_still : ∀ descriptor < 3, ((Table.inherited table).get? descriptor).isSome = true := by
    intro descriptor low
    rw [Table.get?_inherited, Option.isSome_map, standard descriptor low]
  have ordered : Program.InOrder (Plant.Permits refuses (.inherited table) left right)
      (Plant.Restored refuses (.inherited table) left right) point plant :=
    pipe_heeds open_still surroundings trace point plant run
  have staged : Staged refuses (.inherited table) left right plant.stages := by
    cases point <;> exact ordered.1
  have own : Settled point → plant.table.Same (Table.inherited table) := by
    intro settled
    cases point with
    | done result => exact ordered.2.1
    | ask call again next =>
        cases call with
        | wait pid => exact (ordered.2 pid rfl).2
        | _ => exact absurd settled not_false
  refine ⟨own, staged, ?_, ?_, ?_⟩
  · rintro pid again next rfl
    exact (ordered.2 pid rfl).1
  · rintro code rfl
    exact ordered.2.2 code rfl
  · intro settled first second started leftTable rightTable leftArrives rightArrives
    rw [started] at staged
    exact sole_of_same table (own settled) (staged.1.arrives leftTable leftArrives)
      (staged.2.arrives rightTable rightArrives)

/-! ## A pipe between two files -/

/-- Answers to the shell under which everything is found and every stage leaves with code 0. -/
def Plant.serve : (call : Request) → Plant α → Option (call.Answer × Plant α)
  | .pathExists _, plant => some (true, plant)
  | .canonicalize path, plant => some (.ok path, plant)
  | .isDirectory _, plant => some (true, plant)
  | .pipe, plant =>
      let (read, table) := plant.table.add 0 .reading
      let (write, table) := table.add 0 .writing
      some (.ok ⟨read, write⟩, { plant with table := table })
  | .close descriptor, plant => some ((), { plant with table := plant.table.erase descriptor })
  | .fork child, plant =>
      some (.ok ⟨plant.stages.length + 1, Nat.succ_pos _⟩,
        { plant with stages := plant.stages ++ [(child, plant.table)] })
  | .wait _, plant => some (.ok (.exited 0), plant)
  | .poll _, plant => some (.ok .stillAlive, plant)

/-- How a stage leaves: its exit code, and what its first descriptors lead to. -/
structure Ending (α : Type) where
  code : Int
  streams : List (Option (Outlet α))
  deriving DecidableEq

/-- How the stages leave when no program can be executed. -/
def Plant.endings (plant : Plant α) (count : Nat) : List (Option (Ending α)) :=
  plant.stages.map fun stage =>
    (stage.1.steps.runWith Table.serve 1 stage.2).map fun last =>
      ⟨last.1, (List.range count).map last.2.get?⟩

theorem Plant.serves_serve (call : Request) (plant : Plant α) (answer : call.Answer)
    (after : Plant α) (answered : plant.serve call = some (answer, after)) :
    Plant.Serves call plant answer after := by
  cases call with
  | pipe =>
      cases answered
      exact .inl ⟨_, rfl, plant.table.lowest_lowestFree, Descriptors.lowest_lowestFree _, rfl⟩
  | fork child =>
      cases answered
      exact .inl ⟨_, rfl, rfl⟩
  | _ =>
      cases answered
      rfl

/-- The left stage reads a file and the right one writes one; both reach their programs with two
streams of their own, and descriptor 3, which was free, is free again. -/
theorem Launch.pipe_leaks_nothing_redirected :
    let table : Descriptors Nat := ⟨[(0, 10), (1, 11), (2, 12), (4, 14)]⟩
    let left : Command := ⟨"cat", [], ⟨some (Path.ofText "in"), none⟩⟩
    let right : Command := ⟨"wc", ["-l"], ⟨none, some (Path.ofText "out")⟩⟩
    (∀ descriptor < 3, (table.get? descriptor).isSome = true) ∧
      ∃ trace plant,
        Program.Reaches Plant.Serves (Launch.pipe ⟨Path.ofText "/", []⟩ left right)
          ⟨.inherited table, []⟩ trace (.done (.ok 0)) plant ∧
        plant.endings 6 =
          [some ⟨127, [some (.opened (Path.ofText "in") .read), some .writing, some (.kept 12), none,
              some (.kept 14), none]⟩,
            some ⟨127, [some .reading, some (.opened (Path.ofText "out") .truncate), some (.kept 12),
              none, some (.kept 14), none]⟩] ∧
        Plumbed (fun _ => False) (.inherited table) left right (.done (.ok 0)) plant := by
  intro table left right
  have standard : ∀ descriptor < 3, (table.get? descriptor).isSome = true := by decide
  have ran : ((Launch.pipe ⟨Path.ofText "/", []⟩ left right).runWith Plant.serve 1
      ⟨.inherited table, []⟩).map (fun last => (last.1.toOption, last.2.endings 6)) =
      some (some 0,
        [some ⟨127, [some (.opened (Path.ofText "in") .read), some .writing, some (.kept 12), none,
            some (.kept 14), none]⟩,
          some ⟨127, [some .reading, some (.opened (Path.ofText "out") .truncate), some (.kept 12),
            none, some (.kept 14), none]⟩]) := by
    decide +kernel
  obtain ⟨⟨result, plant⟩, ran, summary⟩ := Option.map_eq_some_iff.1 ran
  obtain ⟨code, endings⟩ := Prod.mk.inj summary
  obtain ⟨trace, run⟩ := Program.runs_of_runWith Plant.serves_serve ran
  cases result with
  | error error => cases code
  | ok found =>
      obtain rfl : found = 0 := Option.some.inj code
      exact ⟨standard, trace, plant, run.reaches, endings,
        Launch.pipe_leaks_nothing table standard (fun _ => False) _ left right run.reaches⟩

end LineShell
