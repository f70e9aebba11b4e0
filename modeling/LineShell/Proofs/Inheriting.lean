/-
# LineShell.Proofs.Inheriting -- a child sees the variables that the session sees

A child is handed its variables as strings, a name and a value with a `=` between them.  It
looks a name up by the beginning of these strings (`Environment.lookup?`), and the session
by the names in its list.  As long as no name holds a `=` both find the same
(`lookup?_entries`): what stands before the first `=` of a string is the name, so a name
that another one begins with is not mistaken for it, whatever the values hold.

`Session.Revised` is any row of updates of variables and of attempts to change the
directory.  None of them makes a name with a `=`, or an entry that cannot be handed over,
so what holds of the variables at the start holds later on.

`Session.Revised.children_inherit` says it of every child that is started afterwards, by
any line, and that the child is where the last successful `cd` has said.
-/
import LineShell.Proofs.Refusing
import LineShell.Proofs.Undisturbed

namespace LineShell

set_option autoImplicit false

open Program

/-! ## One entry -/

namespace Variable

variable {v : Variable} {name : Bytes}

/-- Cut an entry at its first `=`. -/
def cut? (entry : Bytes) : Option Variable :=
  match entry.dropWhile (· ≠ equals) with
  | [] => none
  | _ :: value => some ⟨entry.takeWhile (· ≠ equals), value⟩

theorem cut?_entry (plain : equals ∉ v.name) : cut? v.entry = some v := by
  have before : ∀ byte ∈ v.name, decide (byte ≠ equals) = true := by
    rintro byte mem
    exact decide_eq_true fun same => plain (same ▸ mem)
  unfold cut? entry
  rw [List.dropWhile_append_of_pos before, List.takeWhile_append_of_pos before]
  simp

/-- Only the entries of a name begin with the name and `=`. -/
theorem prefix_entry_iff (plain : equals ∉ v.name) (also : equals ∉ name) :
    name ++ [equals] <+: v.entry ↔ v.name = name := by
  constructor
  · rintro ⟨rest, same⟩
    have other : entry ⟨name, rest⟩ = v.entry := by
      rw [← same, List.append_assoc, List.singleton_append, entry]
    have cut : some ⟨name, rest⟩ = some v := by
      rw [← cut?_entry also, other, cut?_entry plain]
    rw [← Option.some.inj cut]
  · rintro rfl
    exact ⟨v.value, by rw [List.append_assoc, List.singleton_append, entry]⟩

theorem drop_entry (v : Variable) : v.entry.drop (v.name.length + 1) = v.value := by
  simp [entry, List.drop_append]

theorem zero_mem_entry_iff : 0 ∈ v.entry ↔ 0 ∈ v.name ∨ 0 ∈ v.value := by
  simp [entry, equals]

end Variable

/-! ## All entries -/

namespace Environment

variable {environment : Environment} {name value : Bytes}

/-- No name holds a `=`. -/
def Plain (environment : Environment) : Prop :=
  ∀ v ∈ environment, Variable.equals ∉ v.name

/-- What is found for a name in the entries that a program was handed: what is left of the first one
that begins with the name and `=`. -/
def lookup? (entries : List Bytes) (name : Bytes) : Option Bytes :=
  (entries.find? fun entry => (name ++ [Variable.equals]).isPrefixOf entry).map fun entry =>
    entry.drop (name.length + 1)

/-- The first entry that begins with a name and `=` is the one of the first variable of this name. -/
theorem lookup?_entries (plain : Plain environment)
    (also : Variable.equals ∉ name) : lookup? environment.entries name = environment.value? name := by
  induction environment with
  | nil => rfl
  | cons first rest ih =>
      obtain ⟨here, later⟩ := List.forall_mem_cons.1 plain
      have begins : (name ++ [Variable.equals]).isPrefixOf first.entry = decide (first.name = name) := by
        rw [Bool.eq_iff_iff, List.isPrefixOf_iff_prefix, decide_eq_true_iff]
        exact Variable.prefix_entry_iff here also
      have found := ih later
      unfold lookup? entries at found ⊢
      rw [List.map_cons, List.find?_cons, begins, value?]
      by_cases same : first.name = name
      · subst same
        simp [Variable.drop_entry]
      · simpa [same] using found

theorem mem_assign {v : Variable} (mem : v ∈ environment.assign name value) :
    v ∈ environment ∨ v = ⟨name, value⟩ := by
  rcases environment.split_at name with absent | ⟨front, old, back, rfl, absent⟩
  · rw [assign_of_absent value absent] at mem
    simpa using mem
  · rw [assign_of_front old value absent] at mem
    rcases List.mem_append.1 mem with inFront | rest
    · exact .inl (List.mem_append_left _ inFront)
    · rcases List.mem_cons.1 rest with rfl | inBack
      · exact .inr rfl
      · exact .inl (List.mem_append_right _ (List.mem_cons_of_mem _ inBack))

theorem Plain.assign (plain : Plain environment) (also : Variable.equals ∉ name) :
    Plain (environment.assign name value) := by
  intro v mem
  rcases mem_assign mem with old | rfl
  · exact plain v old
  · exact also

theorem withoutNul_assign (clean : WithoutNul environment.entries) (cleanName : 0 ∉ name)
    (cleanValue : 0 ∉ value) : WithoutNul (environment.assign name value).entries := by
  refine List.forall_mem_map.2 fun v mem => ?_
  rcases mem_assign mem with old | rfl
  · exact clean v.entry (List.mem_map_of_mem old)
  · rw [Variable.zero_mem_entry_iff]
    exact not_or.2 ⟨cleanName, cleanValue⟩

end Environment

/-! ## What a child is handed -/

/-- The entries that a child is handed. -/
def Context.block (context : Context) : List Bytes :=
  context.environment.map NulFree.bytes

/-- What a child finds when it looks a name up. -/
def Context.value? (context : Context) (name : Bytes) : Option Bytes :=
  Environment.lookup? context.block name

/-- A child sees what the session sees. -/
structure Context.Shows (context : Context) (session : Session) : Prop where
  directory : context.directory.path = session.directory
  entries : context.block.map Variable.cut? = session.environment.map some
  value : ∀ name, Variable.equals ∉ name → context.value? name = session.environment.value? name
  /-- Commands are looked up with the same search path. -/
  searchPath : context.value? SearchPath.variableName = session.searchPath
  /-- A `cd` without an argument goes to the same directory. -/
  home : (context.value? Session.homeName).map Path.mk = session.directoryTarget? none

theorem Context.Carries.shows {context : Context} {session : Session}
    (carries : context.Carries session.toSurroundings)
    (plain : session.environment.Plain) : context.Shows session := by
  have block : context.block = session.environment.entries := carries.environment
  have value (name : Bytes) (also : Variable.equals ∉ name) :
      context.value? name = session.environment.value? name := by
    unfold Context.value?
    rw [block]
    exact Environment.lookup?_entries plain also
  refine ⟨congrArg Path.mk carries.directory, ?_, value, ?_, ?_⟩
  · rw [block, Environment.entries, List.map_map]
    exact List.map_congr_left fun v mem => Variable.cut?_entry (plain v mem)
  · exact value _ (by decide +kernel)
  · rw [value _ (by decide +kernel)]
    rfl

section

variable {σ : Type} {step : (call : Request) → σ → call.Answer → σ → Prop} {state final : σ}
variable {trace : Shell.Trace} {surroundings : Surroundings} {child : Child}
variable {answer : Except Errno Pid}

/-! ## The children of a line -/

theorem carries_of_command {command : Command} {background : Bool}
    {result : Except LaunchError Launched}
    (run : Runs step (Launch.command surroundings command background) state trace result final)
    (forked : ⟨.fork child, answer⟩ ∈ trace) : child.image.context.Carries surroundings := by
  obtain ⟨early, late, _, _, rfl, looked, _, ensues⟩ := run.of_command
  rcases List.mem_append.1 forked with before | after
  · exact absurd ((locate_asks _ _).runs looked _ before) not_false
  · cases ensues with
    | notFound error => cases after
    | nul error _ => cases after
    | forks _ carries waits _ =>
        cases after with
        | head => exact carries.context
        | tail _ later =>
            obtain ⟨pid, _, waited⟩ := waits _ later
            cases waited

theorem carries_of_starts {left right : Image} {result : Except LaunchError Int}
    (starts : Launch.Starts left right trace result) (leftCarries : left.context.Carries surroundings)
    (rightCarries : right.context.Carries surroundings) (forked : ⟨.fork child, answer⟩ ∈ trace) :
    child.image.context.Carries surroundings := by
  cases starts with
  | unpiped errno => simp at forked
  | alone errno quiet =>
      cases forked with
      | tail _ later =>
          cases later with
          | head => exact leftCarries
          | tail _ rest => exact absurd trivial (quiet _ rest)
  | both quiet _ =>
      cases forked with
      | tail _ later =>
          cases later with
          | head => exact leftCarries
          | tail _ later =>
              cases later with
              | head => exact rightCarries
              | tail _ rest => exact absurd trivial (quiet _ rest)

theorem carries_of_pipe {left right : Command} {result : Except LaunchError Int}
    (run : Runs step (Launch.pipe surroundings left right) state trace result final)
    (forked : ⟨.fork child, answer⟩ ∈ trace) : child.image.context.Carries surroundings := by
  rcases run.of_pipe with ⟨_, _, _, rfl, _⟩ | ⟨_, early, late, _, _, _, rfl, looks, _, ensues⟩
  · cases forked
  · rcases List.mem_append.1 forked with before | after
    · exact absurd (looks.tests _ before) not_false
    · cases ensues with
      | nul error _ => cases after
      | starts _ leftCarries rightCarries starts =>
          exact carries_of_starts starts leftCarries.context rightCarries.context after

/-- A line hands its children the directory and the variables of its session. -/
theorem carries_of_line {session : Session} {line : String} {outcome : Session.Outcome}
    (run : Runs step (session.runLine line) state trace outcome final)
    (forked : ⟨.fork child, answer⟩ ∈ trace) :
    child.image.context.Carries session.toSurroundings := by
  obtain ⟨early, late, _, work, rfl, worked, concluded⟩ := run.of_runLine
  have inWork : ⟨.fork child, answer⟩ ∈ early := by
    rw [← concluded.foreground_eq worked]
    exact List.mem_filter.2 ⟨forked, by simp [Request.IsPoll]⟩
  generalize Errand.ofLine line = errand at worked
  cases errand with
  | exit =>
      obtain ⟨rfl, _⟩ := worked.of_pure
      cases inWork
  | complain error =>
      obtain ⟨rfl, _⟩ := worked.of_pure
      cases inWork
  | move argument =>
      obtain ⟨moved, changed, _⟩ := worked.of_bind_done
      exact absurd ((changeDirectory_asks _ _).runs changed _ inWork) not_false
  | send command =>
      obtain ⟨launched, launching, _⟩ := worked.of_bind_done
      exact carries_of_command launching inWork
  | run command =>
      obtain ⟨launched, launching, _⟩ := worked.of_bind_done
      exact carries_of_command launching inWork
  | join left right =>
      obtain ⟨piped, piping, _⟩ := worked.of_bind_done
      exact carries_of_pipe piping inWork

/-! ## Updates -/

/-- What is done to the variables or the directory of a session. -/
inductive Revision where
  | assigned (name value : Bytes)
  /-- A `cd` that has found a directory. -/
  | moved (directory : Path)
  | stayed (error : DirectoryError)

/-- The variable for the directory is not given another value. -/
def Revision.Spares : Revision → Prop
  | .assigned name _ => name ≠ Session.directoryName
  | .moved _ => False
  | .stayed _ => True

/-- Give a variable of a session a value. -/
def Session.assign (session : Session) (name value : Bytes) : Session :=
  { session with environment := session.environment.assign name value }

/-- A row of updates, with the system in any state at each of them. -/
inductive Session.Revised (step : (call : Request) → σ → call.Answer → σ → Prop) :
    Session → List Revision → Session → Prop where
  | done (session : Session) : Revised step session [] session
  | assigned {session last : Session} {rest : List Revision} {name value : Bytes} :
      Variable.equals ∉ name → 0 ∉ name → 0 ∉ value →
      Revised step (session.assign name value) rest last →
      Revised step session (.assigned name value :: rest) last
  | moved {session moved last : Session} {rest : List Revision} {argument : Option String}
      {state final : σ} {trace : Shell.Trace} :
      Runs step (session.changeDirectory argument) state trace (.ok (), moved) final →
      Revised step moved rest last → Revised step session (.moved moved.directory :: rest) last
  | stayed {session left last : Session} {rest : List Revision} {argument : Option String}
      {error : DirectoryError} {state final : σ} {trace : Shell.Trace} :
      Runs step (session.changeDirectory argument) state trace (.error error, left) final →
      Revised step left rest last → Revised step session (.stayed error :: rest) last

variable {session moved first last : Session} {history rest : List Revision} {directory : Path}

/-- A `cd` that goes well is a move to a path that the system has given. -/
theorem moved_of_changeDirectory {argument : Option String}
    (run : Runs step (session.changeDirectory argument) state trace (.ok (), moved) final) :
    moved = session.moveTo moved.directory ∧
      ∃ path before after, step (.canonicalize path) before (.ok moved.directory) after := by
  rcases run.of_changeDirectory with ⟨_, failed⟩ | ⟨path, found, mem, same⟩
  · cases failed
  · cases same
    obtain ⟨before, after, answered⟩ := run.answered _ mem
    exact ⟨rfl, path, before, after, answered⟩

/-- A `cd` that goes wrong changes nothing. -/
theorem stayed_of_changeDirectory {argument : Option String} {error : DirectoryError} {left : Session}
    (run : Runs step (session.changeDirectory argument) state trace (.error error, left) final) :
    left = session := by
  rcases run.of_changeDirectory with ⟨_, same⟩ | ⟨_, _, _, same⟩
  · exact (Prod.mk.inj same).2
  · cases same

theorem Session.Revised.plain (revised : Revised step first history last)
    (plain : first.environment.Plain) : last.environment.Plain := by
  induction revised with
  | done session => exact plain
  | assigned also _ _ _ ih => exact ih (plain.assign also)
  | moved run _ ih =>
      refine ih ?_
      rw [(moved_of_changeDirectory run).1]
      exact plain.assign (by decide +kernel)
  | stayed run _ ih =>
      obtain rfl := stayed_of_changeDirectory run
      exact ih plain

/-- The system names a directory by a path without a NUL. -/
def NamesWithoutNul (step : (call : Request) → σ → call.Answer → σ → Prop) : Prop :=
  ∀ path before found after, step (.canonicalize path) before (.ok found) after → 0 ∉ found.bytes

theorem Session.Revised.clean (names : NamesWithoutNul step) (revised : Revised step first history last)
    (clean : WithoutNul first.environment.entries) : WithoutNul last.environment.entries := by
  induction revised with
  | done session => exact clean
  | assigned _ cleanName cleanValue _ ih =>
      exact ih (Environment.withoutNul_assign clean cleanName cleanValue)
  | moved run _ ih =>
      obtain ⟨same, _, _, _, answered⟩ := moved_of_changeDirectory run
      refine ih ?_
      rw [same]
      exact Environment.withoutNul_assign clean (by decide +kernel) (names _ _ _ _ answered)
  | stayed run _ ih =>
      obtain rfl := stayed_of_changeDirectory run
      exact ih clean

/-- The session is in a place that its variable names. -/
structure Session.Names (session : Session) (place : Path) : Prop where
  directory : session.directory = place
  value : session.environment.value? directoryName = some place.bytes

theorem Session.Revised.stays (revised : Revised step session rest last)
    (spares : ∀ revision ∈ rest, revision.Spares) (names : session.Names directory) :
    last.Names directory := by
  induction revised with
  | done session => exact names
  | assigned _ _ _ _ ih =>
      obtain ⟨other, later⟩ := List.forall_mem_cons.1 spares
      refine ih later ⟨names.directory, ?_⟩
      exact (Environment.value?_assign_of_ne _ _ (Ne.symm other)).trans names.value
  | moved _ _ _ => exact absurd (List.forall_mem_cons.1 spares).1 not_false
  | stayed run _ ih =>
      obtain rfl := stayed_of_changeDirectory run
      exact ih (List.forall_mem_cons.1 spares).2 names

/-- The updates behind the first ones begin with some session. -/
theorem Session.Revised.behind {before : List Revision}
    (revised : Revised step first (before ++ rest) last) : ∃ middle, Revised step middle rest last := by
  induction before generalizing first with
  | nil => exact ⟨first, revised⟩
  | cons revision before ih =>
      cases revised with
      | assigned _ _ _ later => exact ih later
      | moved _ later => exact ih later
      | stayed _ later => exact ih later

/-- The last `cd` that went well counts. -/
theorem Session.Revised.names_last {before : List Revision}
    (revised : Revised step first (before ++ .moved directory :: rest) last)
    (spares : ∀ revision ∈ rest, revision.Spares) : last.Names directory := by
  obtain ⟨middle, revised⟩ := revised.behind
  cases revised with
  | moved run later =>
      refine later.stays spares ⟨rfl, ?_⟩
      rw [(moved_of_changeDirectory run).1]
      exact Environment.value?_assign_self _ _ _

/-! ## Every child -/

/-- What the children of a session are handed after a row of updates. -/
structure Session.Bequeaths (step : (call : Request) → σ → call.Answer → σ → Prop)
    (history : List Revision) (session : Session) : Prop where
  shows : ∀ context, Context.prepare session.toSurroundings = .ok context → context.Shows session
  children : ∀ line state trace outcome final,
    Runs step (session.runLine line) state trace outcome final →
      ∀ child answer, ⟨.fork child, answer⟩ ∈ trace → child.image.context.Shows session
  /-- After a `cd` that went well they are where the variable says. -/
  directory : ∀ before directory after, history = before ++ .moved directory :: after →
    (∀ revision ∈ after, revision.Spares) →
      ∀ context, Context.prepare session.toSurroundings = .ok context →
        context.directory.path = directory ∧ context.value? directoryName = some directory.bytes
  /-- Only the directory can be a reason to refuse what they are to be handed. -/
  refused : NamesWithoutNul step → ∀ error, Context.prepare session.toSurroundings = .error error ↔
    NulAt session.directory.bytes error.position

theorem refused_of_clean (clean : WithoutNul surroundings.environment.entries) (error : NulError) :
    Context.prepare surroundings = .error error ↔ NulAt surroundings.directory.bytes error.position := by
  rw [(Context.prepare_checks surroundings).refused error, Surroundings.strings,
    ← List.singleton_append, firstNul_append, firstNul_singleton]
  refine or_iff_left ?_
  rintro ⟨_, found⟩
  exact found.not_withoutNul clean

/-- A child sees the variables that the session sees, whatever was assigned and wherever the session
was moved before. -/
theorem Session.Revised.children_inherit (plain : first.environment.Plain)
    (clean : WithoutNul first.environment.entries) (revised : Revised step first history last) :
    last.Bequeaths step history := by
  have later := revised.plain plain
  have shows (context : Context) (prepared : Context.prepare last.toSurroundings = .ok context) :
      context.Shows last :=
    ((Context.prepare_checks last.toSurroundings).accepted context prepared).shows later
  refine ⟨shows, fun line state trace outcome final run child answer forked =>
    (carries_of_line run forked).shows later, ?_, fun names => refused_of_clean (revised.clean names clean)⟩
  rintro before directory after rfl spares context prepared
  have names := revised.names_last spares
  have sees := shows context prepared
  refine ⟨sees.directory.trans names.directory, ?_⟩
  rw [sees.value _ (by decide +kernel)]
  exact names.value

end

/-- Answers under which there is one directory, and every child leaves with code 3. -/
def Request.homely : (call : Request) → Unit → Option (call.Answer × Unit)
  | .canonicalize path, _ =>
      some (if path = Path.ofText "/home" then .ok path else .error .ENOENT, ())
  | call, _ => some (calmly call, ())

/-- The system that answers so. -/
def Request.Homely (call : Request) (before : Unit) (answer : call.Answer) (after : Unit) : Prop :=
  homely call before = some (answer, after)

theorem Request.Homely.names : NamesWithoutNul Request.Homely := by
  intro path before found after answered
  have answered := (Prod.mk.inj (Option.some.inj answered)).1
  split at answered
  · next home =>
      obtain rfl := Except.ok.inj answered
      rw [home]
      decide +kernel
  · cases answered

/-- Names that begin with each other, a name that occurs twice, one that is empty, and values with a
`=`; the home is found, and another directory is not.  The child of a line is handed all of this. -/
theorem Session.Revised.children_inherit_shadowed :
    let session : Session := ⟨⟨Path.ofText "/", [⟨"PATHS", "/s"⟩, ⟨"PATH", "/bin"⟩, ⟨"PATH", "/old"⟩,
      ⟨"", "=a"⟩, ⟨"HOME", "/home"⟩, ⟨"P", ""⟩]⟩, []⟩
    let history : List Revision := [.assigned "PATH" "/x=y", .moved (Path.ofText "/home"),
      .stayed (.notFound (Path.ofText "gone")), .assigned "A" "b=c"]
    let block : List Bytes := ["PATHS=/s", "PATH=/x=y", "PATH=/old", "==a", "HOME=/home", "P=",
      "PWD=/home", "A=b=c"]
    ∃ last context trace outcome child, session.Revised Request.Homely history last ∧
      last.Bequeaths Request.Homely history ∧ Context.prepare last.toSurroundings = .ok context ∧
      Runs Request.Homely (last.runLine "show me") () trace outcome () ∧
      startedChildren trace = [child] ∧ child.image.context.Shows last ∧
      child.image.context.block = block ∧ context.block = block ∧
      context.value? "PATH" = some "/x=y" ∧ context.value? "P" = some "" ∧
      context.value? "" = some "=a" ∧ context.value? "A" = some "b=c" ∧
      context.value? "PWD" = some "/home" ∧ context.value? "B" = none := by
  intro session history block
  let assigned : Session := session.assign "PATH" "/x=y"
  let moved : Session := assigned.moveTo (Path.ofText "/home")
  let last : Session := moved.assign "A" "b=c"
  have performs : ∀ call state answer after, Request.homely call state = some (answer, after) →
      Request.Homely call state answer after :=
    fun _ _ _ _ performed => performed
  have found : (assigned.changeDirectory none).runWith Request.homely 1 () = some ((.ok (), moved), ()) := by
    decide +kernel
  have failed : (moved.changeDirectory (some "gone")).runWith Request.homely 1 () =
      some ((.error (.notFound (Path.ofText "gone")), moved), ()) := by
    decide +kernel
  obtain ⟨_, found⟩ := runs_of_runWith performs found
  obtain ⟨_, failed⟩ := runs_of_runWith performs failed
  have revised : session.Revised Request.Homely history last := by
    refine .assigned (by decide +kernel) (by decide +kernel) (by decide +kernel) ?_
    refine .moved found (.stayed failed ?_)
    exact .assigned (by decide +kernel) (by decide +kernel) (by decide +kernel) (.done last)
  have plain : session.environment.Plain := by
    unfold Environment.Plain
    decide +kernel
  have clean : WithoutNul session.environment.entries := by
    unfold WithoutNul
    decide +kernel
  have inherit := Session.Revised.children_inherit plain clean revised
  obtain ⟨context, made⟩ : ∃ context, Context.prepare last.toSurroundings = .ok context := by
    cases made : Context.prepare last.toSurroundings with
    | error error =>
        have found := ((inherit.refused Request.Homely.names error).1 made).mem
        exact absurd found (by decide +kernel)
    | ok context => exact ⟨context, rfl⟩
  have elsewhere : Bytes.ofText "A" ≠ directoryName := by decide +kernel
  have spares : ∀ revision ∈ [.stayed (.notFound (Path.ofText "gone")), .assigned "A" "b=c"],
      Revision.Spares revision :=
    List.forall_mem_cons.2 ⟨trivial, List.forall_mem_cons.2 ⟨elsewhere, List.forall_mem_nil _⟩⟩
  have current := (inherit.directory [.assigned "PATH" "/x=y"] _ _ rfl spares context made).2
  have prepared := ((Context.prepare_checks last.toSurroundings).accepted context made).environment
  have value (name : Bytes) (plain : Variable.equals ∉ name) :
      context.value? name = last.environment.value? name :=
    (inherit.shows context made).value name plain
  have shown : ((last.runLine "show me").runWith (record Request.homely) 1 ((), [])).map
      (fun shown => (startedChildren shown.2.2).map fun child => child.image.context.block) =
        some [block] := by
    decide +kernel
  obtain ⟨⟨outcome, ⟨⟩, trace⟩, shown, handed⟩ := Option.map_eq_some_iff.1 shown
  obtain ⟨child, started, handed⟩ := List.map_eq_singleton_iff.1 handed
  have run := runs_of_record performs shown
  obtain ⟨answer, forked⟩ := mem_startedChildren.1 (started ▸ List.mem_singleton_self child)
  have sees := inherit.children "show me" () trace outcome () run child answer forked
  refine ⟨last, context, trace, outcome, child, revised, inherit, made, run, started, sees, handed,
    prepared.trans (by decide +kernel), ?_, ?_, ?_, ?_, current, ?_⟩
  · exact (value "PATH" (by decide +kernel)).trans (by decide +kernel)
  · exact (value "P" (by decide +kernel)).trans (by decide +kernel)
  · exact (value "" (by decide +kernel)).trans (by decide +kernel)
  · exact (value "A" (by decide +kernel)).trans (by decide +kernel)
  · exact (value "B" (by decide +kernel)).trans (by decide +kernel)

end LineShell
