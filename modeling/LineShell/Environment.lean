/-
# LineShell.Environment -- the variables that children inherit

An environment is an ordered list of entries in which a name may occur more than
once.  The first entry of a name counts: it is the one that is read and the one
that an update changes.  Updating a name that does not occur appends an entry.
-/
import LineShell.Bytes

namespace LineShell

set_option autoImplicit false

/-- The name and value of a variable. -/
structure Variable where
  name : Bytes
  value : Bytes
  deriving DecidableEq

namespace Variable

/-- The byte between a name and its value. -/
def equals : UInt8 := 0x3D

/-- How an entry is handed to a program. -/
def entry (v : Variable) : Bytes :=
  v.name ++ equals :: v.value

/-- Read an entry: the name is never empty, so the first byte belongs to it in any case. -/
def ofEntry? : Bytes → Option Variable
  | [] => none
  | first :: rest =>
      match rest.dropWhile (· ≠ equals) with
      | [] => none
      | _ :: value => some ⟨first :: rest.takeWhile (· ≠ equals), value⟩

end Variable

/-- Variables in order, duplicates included. -/
abbrev Environment := List Variable

namespace Environment

/-- The value of a variable. -/
def value? (environment : Environment) (name : Bytes) : Option Bytes :=
  match environment with
  | [] => none
  | first :: rest => if first.name = name then some first.value else value? rest name

/-- Give a variable a value. -/
def assign (environment : Environment) (name value : Bytes) : Environment :=
  match environment with
  | [] => [⟨name, value⟩]
  | first :: rest =>
      if first.name = name then { first with value := value } :: rest
      else first :: assign rest name value

/-- The entries for a program, in order. -/
def entries (environment : Environment) : List Bytes :=
  environment.map Variable.entry

/-- The environment that a process was started with; an entry without a name is skipped. -/
def ofEntries (entries : List Bytes) : Environment :=
  entries.filterMap Variable.ofEntry?

@[simp] theorem value?_assign_self (environment : Environment) (name value : Bytes) :
    (environment.assign name value).value? name = some value := by
  induction environment with
  | nil => simp [assign, value?]
  | cons first rest ih =>
      by_cases same : first.name = name
      · simp [assign, value?, same]
      · simp [assign, value?, same, ih]

theorem value?_assign_of_ne (environment : Environment) {name other : Bytes} (value : Bytes)
    (ne : other ≠ name) : (environment.assign name value).value? other = environment.value? other := by
  induction environment with
  | nil => simp [assign, value?, ne.symm]
  | cons first rest ih =>
      by_cases same : first.name = name
      · simp [assign, value?, same, ne.symm]
      · simp [assign, value?, same, ih]

end Environment

end LineShell
