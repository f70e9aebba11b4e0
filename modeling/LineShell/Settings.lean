/-
# LineShell.Settings -- what the user chooses through variables

The prompt and the filter for log events come from two variables, each with a
default for when it is not set or its value is not text.
-/
import LineShell.Environment

namespace LineShell

set_option autoImplicit false

/-- The prompt, and which log events are wanted. -/
structure Settings where
  prompt : String
  logFilter : String
  deriving DecidableEq, Repr

namespace Settings

/-- The variable that holds the prompt. -/
def promptName : String := "PS1"

/-- The variable that holds the filter for log events. -/
def logFilterName : String := "MINISH_LOG"

/-- The settings under a lookup of variables. -/
def ofLookup (lookup : String → Option String) : Settings where
  prompt := (lookup promptName).getD "$ "
  logFilter := (lookup logFilterName).getD "warn"

/-- The settings in an environment; a value that is not text counts as not set. -/
def ofEnvironment (environment : Environment) : Settings :=
  ofLookup fun name => (environment.value? (.ofText name)).bind Bytes.text?

end Settings

end LineShell
