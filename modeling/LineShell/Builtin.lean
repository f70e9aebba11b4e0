/-
# LineShell.Builtin -- the lines that the shell carries out itself

Builtins are recognised on the whole line, before the marker for the background
is cut off and before the line is parsed.  `exit` takes no argument.  `cd` takes
the rest of the line as one directory name, inner blanks and operators included,
when a space or a tab follows it.
-/
import LineShell.Blank

namespace LineShell

set_option autoImplicit false

/-- A line that starts no program. -/
inductive Builtin where
  | exit
  | changeDirectory (argument : String)
  deriving DecidableEq, Repr

namespace Builtin

/-- Recognise a builtin in a text without blanks around it. -/
def ofStripped? : List Char → Option Builtin
  | ['e', 'x', 'i', 't'] => some .exit
  | ['c', 'd'] => some (.changeDirectory "")
  | 'c' :: 'd' :: c :: rest =>
      if c = ' ' || c = '\t' then some (.changeDirectory (String.ofList (strip (c :: rest))))
      else none
  | _ => none

/-- Recognise a builtin. -/
def ofLine? (line : String) : Option Builtin :=
  ofStripped? (strip line.toList)

end Builtin

end LineShell
