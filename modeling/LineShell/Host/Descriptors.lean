/-
# LineShell.Host.Descriptors -- which open file each descriptor of a process is

A table gives some descriptors a file.  A new descriptor is always the lowest free
one from a given number upwards.  `Descriptors.get?` is the one view of a table.
-/
import LineShell.Entry

namespace LineShell

set_option autoImplicit false

/-- The descriptors of a process, each with its file. -/
structure Descriptors (α : Type) where
  entries : List (Descriptor × α)

namespace Descriptors

variable {α : Type}

def empty : Descriptors α :=
  ⟨[]⟩

/-- The file of a descriptor. -/
def get? (table : Descriptors α) (descriptor : Descriptor) : Option α :=
  table.entries.lookup descriptor

/-- Free a descriptor. -/
def erase (table : Descriptors α) (descriptor : Descriptor) : Descriptors α :=
  ⟨table.entries.filter fun entry => entry.1 != descriptor⟩

/-- Give a descriptor a file in place of the one it had. -/
def set (table : Descriptors α) (descriptor : Descriptor) (file : α) : Descriptors α :=
  ⟨(descriptor, file) :: (table.erase descriptor).entries⟩

/-- The first free descriptor from a number upwards, after at most `taken` that are not. -/
def firstFree (table : Descriptors α) : Nat → Descriptor → Descriptor
  | 0, descriptor => descriptor
  | taken + 1, descriptor =>
      if (table.get? descriptor).isSome then table.firstFree taken (descriptor + 1) else descriptor

/-- The lowest free descriptor that is not below `floor`. -/
def lowestFree (table : Descriptors α) (floor : Descriptor) : Descriptor :=
  table.firstFree table.entries.length floor

/-- Give the lowest free descriptor from `floor` upwards a file. -/
def add (table : Descriptors α) (floor : Descriptor) (file : α) : Descriptor × Descriptors α :=
  let descriptor := table.lowestFree floor
  (descriptor, table.set descriptor file)

@[simp] theorem get?_empty (descriptor : Descriptor) :
    (empty : Descriptors α).get? descriptor = none :=
  rfl

theorem lookup_filter_ne (entries : List (Descriptor × α)) (gone other : Descriptor) :
    (entries.filter fun entry => entry.1 != gone).lookup other =
      if other = gone then none else entries.lookup other := by
  induction entries with
  | nil => simp
  | cons entry rest ih =>
      obtain ⟨number, file⟩ := entry
      by_cases same : number = gone
      · subst same
        by_cases asked : other = number
        · simpa [asked] using ih
        · simp [List.lookup_cons, asked, beq_eq_false_iff_ne.2 asked, ih]
      · by_cases asked : other = number
        · subst asked
          simp [same]
        · simp [List.lookup_cons, same, beq_eq_false_iff_ne.2 asked, ih]

@[simp] theorem get?_erase (table : Descriptors α) (gone other : Descriptor) :
    (table.erase gone).get? other = if other = gone then none else table.get? other :=
  lookup_filter_ne table.entries gone other

@[simp] theorem get?_set (table : Descriptors α) (changed other : Descriptor) (file : α) :
    (table.set changed file).get? other = if other = changed then some file else table.get? other := by
  by_cases same : other = changed
  · simp [set, get?, same]
  · have kept := get?_erase table changed other
    simp only [same, if_false] at kept
    simp [set, get?, List.lookup_cons, same, beq_eq_false_iff_ne.2 same]
    exact kept

end Descriptors

end LineShell
