/-
# LineShell.Marker -- the marker for the background

A line whose last character, blanks aside, is `&` asks for a command in the
background.  Exactly one `&` is the marker; any other reaches the command.
-/
import LineShell.Blank

namespace LineShell

set_option autoImplicit false

/-- A line without its marker, and whether it had one. -/
structure Marked where
  rest : String
  background : Bool
  deriving DecidableEq, Repr

namespace Marked

/-- Cut the marker off a text without trailing blanks. -/
def ofTrimmed (trimmed : List Char) : Marked :=
  if trimmed.getLast? = some '&' then ⟨String.ofList trimmed.dropLast, true⟩
  else ⟨String.ofList trimmed, false⟩

/-- Cut the marker off a line. -/
def ofLine (line : String) : Marked :=
  ofTrimmed (dropTrailing isBlank line.toList)

end Marked

end LineShell
