/-
# LineShell.Command -- what a line asks for

A command is a program name with its arguments and at most one file for each of
its two standard streams.  A line is one command, or two joined by a pipe.  That
a command has a name is part of its type: `Command.ofTokens?` refuses the empty
list of tokens and `tokens_of_ofTokens?` says that it keeps every other one.
-/
import LineShell.Path

namespace LineShell

set_option autoImplicit false

/-- Which standard stream a redirection is for. -/
inductive Direction where
  | input
  | output
  deriving DecidableEq, Repr

namespace Direction

/-- The operator that is written for the direction. -/
def operator : Direction → String
  | .input => "<"
  | .output => ">"

end Direction

/-- The files that take the place of the standard streams. -/
structure Redirects where
  stdin : Option Path
  stdout : Option Path
  deriving DecidableEq

namespace Redirects

/-- Both streams are left alone. -/
def none : Redirects :=
  ⟨.none, .none⟩

/-- The file for one direction. -/
def target (redirects : Redirects) : Direction → Option Path
  | .input => redirects.stdin
  | .output => redirects.stdout

/-- Replace the file for one direction. -/
def assign (redirects : Redirects) (direction : Direction) (file : Option Path) : Redirects :=
  match direction with
  | .input => { redirects with stdin := file }
  | .output => { redirects with stdout := file }

@[simp] theorem target_assign (redirects : Redirects) (direction : Direction) (file : Option Path) :
    (redirects.assign direction file).target direction = file := by
  cases direction <;> rfl

theorem target_assign_of_ne (redirects : Redirects) {direction other : Direction}
    (file : Option Path) (ne : other ≠ direction) :
    (redirects.assign direction file).target other = redirects.target other := by
  cases direction <;> cases other <;> first | rfl | exact absurd rfl ne

end Redirects

/-- A program name, its arguments, and the files its streams are wired to. -/
structure Command where
  name : String
  arguments : List String
  redirects : Redirects
  deriving DecidableEq

namespace Command

/-- The name followed by the arguments. -/
def tokens (command : Command) : List String :=
  command.name :: command.arguments

/-- The command with these tokens, which redirects nothing. -/
def ofTokens? : List String → Option Command
  | [] => none
  | name :: arguments => some ⟨name, arguments, .none⟩

theorem tokens_of_ofTokens? {tokens : List String} {command : Command}
    (made : ofTokens? tokens = some command) : command.tokens = tokens := by
  cases tokens with
  | nil => simp [ofTokens?] at made
  | cons name arguments =>
      obtain rfl := Option.some.inj made
      rfl

end Command

/-- A parsed line: one command, or two whose middle streams are joined. -/
inductive Line where
  | simple (command : Command)
  | pipe (left right : Command)
  deriving DecidableEq

end LineShell
