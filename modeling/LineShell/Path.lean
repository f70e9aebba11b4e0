/-
# LineShell.Path -- file names as the system sees them

A path is a byte string.  Joining follows two rules: an absolute right part
replaces the left one, and one separator is put between the parts unless the left
part is empty or already ends with one.  Nothing is normalised, so `.`, `..`,
repeated separators and a trailing separator stay as written.
-/
import LineShell.Bytes

namespace LineShell

set_option autoImplicit false

/-- A file name: any byte string, as written. -/
structure Path where
  bytes : Bytes
  deriving DecidableEq

namespace Path

/-- The byte that separates the components of a path. -/
def separator : UInt8 := 0x2F

def ofText (text : String) : Path :=
  ⟨Bytes.ofText text⟩

/-- Whether the path starts at the root directory. -/
def isAbsolute (path : Path) : Bool :=
  path.bytes.head? == some separator

/-- Whether a separator has to be written before a component that is appended. -/
def needsSeparator (path : Path) : Bool :=
  match path.bytes.getLast? with
  | none => false
  | some last => last != separator

/-- `right` as seen from `left`. -/
def join (left right : Path) : Path :=
  if right.isAbsolute then right
  else if left.needsSeparator then ⟨left.bytes ++ separator :: right.bytes⟩
  else ⟨left.bytes ++ right.bytes⟩

/-- The path in a message. -/
def shown (path : Path) : String :=
  path.bytes.shown

theorem join_of_isAbsolute (left : Path) {right : Path} (absolute : right.isAbsolute = true) :
    left.join right = right := by
  simp [join, absolute]

/-- What is seen from an absolute path is absolute. -/
theorem isAbsolute_join {left : Path} (right : Path) (absolute : left.isAbsolute = true) :
    (left.join right).isAbsolute = true := by
  cases bytes : left.bytes with
  | nil => simp [isAbsolute, bytes] at absolute
  | cons first rest =>
      have first_eq : first = separator := by simpa [isAbsolute, bytes] using absolute
      unfold join
      split
      · assumption
      · split <;> simp [isAbsolute, bytes, first_eq]

end Path

end LineShell
