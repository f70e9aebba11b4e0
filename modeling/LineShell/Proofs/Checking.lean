/-
# LineShell.Proofs.Checking -- which string is refused, and where its NUL stands

A child needs several strings, and each is checked for a NUL before the child is
started.  `Checks` says what a check of strings in order comes to: it is refused
exactly when one of them holds a NUL, with the position of the first NUL of the
first such string (`FirstNul`), and what it gives otherwise is right.  Two checks
one after the other are one check of all their strings (`Checks.bind`), so the order
of the strings of an image is read off the program.

`Image.prepare_checks` gives that order for a child: the program, the file for the
input, the file for the output, the arguments, after the directory and the variables
of `Context.prepare_checks`.
-/
import LineShell.Proofs.Preparing

namespace LineShell

set_option autoImplicit false

/-- No string holds a NUL. -/
def WithoutNul (strings : List Bytes) : Prop :=
  ∀ bytes ∈ strings, 0 ∉ bytes

/-- The first NUL of a string stands at a position. -/
def NulAt (bytes : Bytes) (position : Nat) : Prop :=
  bytes[position]? = some 0 ∧ 0 ∉ bytes.take position

/-- The first string that holds a NUL has its first one at a position. -/
def FirstNul (strings : List Bytes) (position : Nat) : Prop :=
  ∃ before bytes after, strings = before ++ bytes :: after ∧ WithoutNul before ∧ NulAt bytes position

section Strings

variable {strings more : List Bytes} {bytes : Bytes} {position : Nat}

theorem withoutNul_append : WithoutNul (strings ++ more) ↔ WithoutNul strings ∧ WithoutNul more :=
  List.forall_mem_append

theorem NulAt.mem (found : NulAt bytes position) : 0 ∈ bytes :=
  List.mem_of_getElem? found.1

theorem NulAt.mem_take {later : Nat} (found : NulAt bytes position) (less : position < later) :
    0 ∈ bytes.take later := by
  have kept : (bytes.take later)[position]? = some 0 := by
    rw [List.getElem?_take_of_lt less]
    exact found.1
  exact List.mem_of_getElem? kept

theorem NulAt.unique {other : Nat} (found : NulAt bytes position) (also : NulAt bytes other) :
    position = other := by
  rcases Nat.lt_trichotomy position other with less | same | more
  · exact absurd (found.mem_take less) also.2
  · exact same
  · exact absurd (also.mem_take more) found.2

theorem exists_nulAt (holds : 0 ∈ bytes) : ∃ position, NulAt bytes position := by
  obtain ⟨before, after, rfl, clean⟩ := List.eq_append_cons_of_mem holds
  exact ⟨before.length, by simp, by simpa using clean⟩

theorem FirstNul.not_withoutNul (found : FirstNul strings position) : ¬ WithoutNul strings := by
  obtain ⟨before, bytes, after, rfl, _, nul⟩ := found
  exact fun clean => clean bytes (by simp) nul.mem

/-- No string holds a NUL, or one of them is the first to hold a NUL. -/
theorem withoutNul_or_firstNul (strings : List Bytes) :
    WithoutNul strings ∨ ∃ position, FirstNul strings position := by
  induction strings with
  | nil => exact .inl nofun
  | cons bytes rest ih =>
      by_cases holds : 0 ∈ bytes
      · obtain ⟨position, nul⟩ := exists_nulAt holds
        exact .inr ⟨position, [], bytes, rest, rfl, nofun, nul⟩
      · rcases ih with clean | ⟨position, before, other, after, rfl, clean, nul⟩
        · exact .inl (List.forall_mem_cons.2 ⟨holds, clean⟩)
        · exact .inr ⟨position, bytes :: before, other, after, rfl,
            List.forall_mem_cons.2 ⟨holds, clean⟩, nul⟩

theorem firstNul_singleton : FirstNul [bytes] position ↔ NulAt bytes position := by
  constructor
  · rintro ⟨before, other, after, split, _, nul⟩
    rcases List.singleton_eq_append_iff.1 split with ⟨_, same⟩ | ⟨_, same⟩
    · obtain ⟨rfl, _⟩ := List.cons.inj same
      exact nul
    · cases same
  · exact fun nul => ⟨[], bytes, [], rfl, nofun, nul⟩

theorem firstNul_append : FirstNul (strings ++ more) position ↔
    FirstNul strings position ∨ WithoutNul strings ∧ FirstNul more position := by
  constructor
  · rintro ⟨before, bytes, after, split, clean, nul⟩
    rcases List.append_eq_append_iff.1 split with
      ⟨early, rfl, rfl⟩ | ⟨late, rfl, joined⟩
    · obtain ⟨cleanFirst, cleanEarly⟩ := withoutNul_append.1 clean
      exact .inr ⟨cleanFirst, early, bytes, after, rfl, cleanEarly, nul⟩
    · cases late with
      | nil =>
          refine .inr ⟨by simpa using clean, [], bytes, after, by simpa using joined.symm, nofun, nul⟩
      | cons first late =>
          obtain ⟨rfl, rfl⟩ := List.cons.inj joined
          exact .inl ⟨before, _, late, rfl, clean, nul⟩
  · rintro (⟨before, bytes, after, rfl, clean, nul⟩ | ⟨clean, before, bytes, after, rfl, early, nul⟩)
    · exact ⟨before, bytes, after ++ more, by simp, clean, nul⟩
    · exact ⟨strings ++ before, bytes, after, by simp, withoutNul_append.2 ⟨clean, early⟩, nul⟩

end Strings

/-! ## Checks in order -/

/-- A result of checking strings in order: it is refused at the first NUL, and right without one. -/
structure Checks {α : Type} (result : Except NulError α) (strings : List Bytes) (right : α → Prop) :
    Prop where
  refused : ∀ error, result = .error error ↔ FirstNul strings error.position
  accepted : ∀ value, result = .ok value → right value

namespace Checks

variable {α β : Type} {result : Except NulError α} {strings more : List Bytes} {right : α → Prop}

theorem withoutNul_of_ok {value : α} (checks : Checks result strings right)
    (passed : result = .ok value) : WithoutNul strings := by
  refine (withoutNul_or_firstNul strings).resolve_right fun ⟨position, found⟩ => ?_
  cases passed.symm.trans ((checks.refused ⟨position⟩).2 found)

theorem ok_of_withoutNul (checks : Checks result strings right) (clean : WithoutNul strings) :
    ∃ value, result = .ok value ∧ right value := by
  cases result with
  | error error => exact absurd clean ((checks.refused error).1 rfl).not_withoutNul
  | ok value => exact ⟨value, rfl, checks.accepted value rfl⟩

theorem pure {value : α} (holds : right value) : Checks (.ok value) [] right where
  refused := by
    intro error
    refine ⟨nofun, ?_⟩
    rintro ⟨before, bytes, after, split, _⟩
    simp at split
  accepted := by
    rintro _ ⟨⟩
    exact holds

theorem bind {rest : α → Except NulError β} {goal : β → Prop}
    (first : Checks result strings right)
    (second : ∀ value, right value → Checks (rest value) more goal) :
    Checks (result >>= rest) (strings ++ more) goal where
  refused := by
    intro error
    rw [bind_eq_error_iff, firstNul_append, first.refused]
    refine or_congr_right ⟨?_, ?_⟩
    · rintro ⟨value, passed, refused⟩
      exact ⟨first.withoutNul_of_ok passed,
        ((second value (first.accepted value passed)).refused error).1 refused⟩
    · rintro ⟨clean, found⟩
      obtain ⟨value, passed, holds⟩ := first.ok_of_withoutNul clean
      exact ⟨value, passed, ((second value holds).refused error).2 found⟩
  accepted := by
    intro value passed
    obtain ⟨middle, passed, later⟩ := bind_eq_ok_iff.1 passed
    exact (second middle (first.accepted middle passed)).accepted value later

/-- What is made of an accepted value is not checked again. -/
theorem bind_ok {finish : α → β} {goal : β → Prop} (first : Checks result strings right)
    (made : ∀ value, right value → goal (finish value)) :
    Checks (result >>= fun value => .ok (finish value)) strings goal := by
  have both := first.bind fun value holds => Checks.pure (made value holds)
  rwa [List.append_nil] at both

end Checks

/-! ## The strings of a child -/

theorem NulFree.error_iff {bytes : Bytes} {error : NulError} :
    ofBytes bytes = .error error ↔ NulAt bytes error.position := by
  unfold ofBytes
  split
  · next position found =>
      obtain ⟨inside, nul, before⟩ := List.findIdx?_eq_some_iff_getElem.1 found
      have first : NulAt bytes position := by
        refine ⟨by simpa [inside] using nul, fun early => ?_⟩
        obtain ⟨earlier, less, same⟩ := List.mem_take_iff_getElem.1 early
        exact before earlier (by omega) (by simpa using same)
      constructor
      · rintro ⟨⟩
        exact first
      · intro also
        rw [first.unique also]
  · next clean =>
      refine ⟨nofun, fun nul => ?_⟩
      have none := List.findIdx?_eq_none_iff.1 clean 0 nul.mem
      simp at none

theorem NulFree.checks (bytes : Bytes) :
    Checks (NulFree.ofBytes bytes) [bytes] fun accepted => accepted.bytes = bytes where
  refused := by
    intro error
    rw [NulFree.error_iff, firstNul_singleton]
  accepted := fun accepted passed => bytes_of_ofBytes passed

/-- Strings are checked in their order. -/
theorem NulFree.mapM_checks {α : Type} (string : α → Bytes) (items : List α) :
    Checks (items.mapM fun item => NulFree.ofBytes (string item)) (items.map string)
      fun accepted => accepted.map NulFree.bytes = items.map string := by
  induction items with
  | nil => exact .pure rfl
  | cons item rest ih =>
      rw [List.mapM_cons, List.map_cons, ← List.singleton_append]
      refine (NulFree.checks (string item)).bind fun first firstSame => ?_
      refine ih.bind_ok fun others othersSame => ?_
      rw [List.map_cons, firstSame, othersSame, List.singleton_append]

theorem Image.optional_checks (path : Option Path) :
    Checks (Image.optional path) (path.toList.map Path.bytes) fun file => file.map NulFree.path = path := by
  cases path with
  | none => exact .pure rfl
  | some path =>
      refine (NulFree.checks path.bytes).bind_ok fun accepted same => ?_
      rw [Option.map_some, NulFree.path, same]

/-- The strings of every child: the directory and the variables. -/
def Surroundings.strings (surroundings : Surroundings) : List Bytes :=
  surroundings.directory.bytes :: surroundings.environment.entries

/-- The strings of a command's child: its program, if it was found, its files and its arguments. -/
def Command.strings (command : Command) (program : Option Path) : List Bytes :=
  program.toList.map Path.bytes ++
    (command.redirects.stdin.toList.map Path.bytes ++
      (command.redirects.stdout.toList.map Path.bytes ++ command.tokens.map Bytes.ofText))

/-- The context holds the directory and the variables. -/
structure Context.Carries (context : Context) (surroundings : Surroundings) : Prop where
  directory : context.directory.bytes = surroundings.directory.bytes
  environment : context.environment.map NulFree.bytes = surroundings.environment.entries

theorem Context.prepare_checks (surroundings : Surroundings) :
    Checks (Context.prepare surroundings) surroundings.strings fun context =>
      context.Carries surroundings := by
  unfold Context.prepare Surroundings.strings
  rw [← List.singleton_append]
  refine (NulFree.checks surroundings.directory.bytes).bind fun directory directorySame => ?_
  have entries := NulFree.mapM_checks id surroundings.environment.entries
  rw [List.map_id] at entries
  exact entries.bind_ok fun environment environmentSame => ⟨directorySame, environmentSame⟩

/-- The image holds what the command and the surroundings say.  The arguments are the tokens as they
were typed, the name among them; the program is the path that was found for it. -/
structure Image.Carries (image : Image) (surroundings : Surroundings) (command : Command)
    (program : Option Path) : Prop where
  name : image.name = command.name
  program : image.program.map NulFree.path = program
  arguments : image.arguments.map NulFree.bytes = command.tokens.map Bytes.ofText
  context : image.context.Carries surroundings
  stdin : image.stdin.map NulFree.path = command.redirects.stdin
  stdout : image.stdout.map NulFree.path = command.redirects.stdout

theorem Image.prepare_checks {surroundings : Surroundings} {context : Context}
    (carries : context.Carries surroundings) (command : Command) (program : Option Path) :
    Checks (Image.prepare command program context) (command.strings program) fun image =>
      image.Carries surroundings command program := by
  unfold Image.prepare Command.strings
  refine (Image.optional_checks program).bind fun file fileSame => ?_
  refine (Image.optional_checks _).bind fun input inputSame => ?_
  refine (Image.optional_checks _).bind fun output outputSame => ?_
  refine (NulFree.mapM_checks Bytes.ofText command.tokens).bind_ok fun arguments argumentsSame => ?_
  exact ⟨rfl, fileSame, argumentsSame, carries, inputSame, outputSame⟩

end LineShell
