/-
# LineShell.Script.Tree -- the words and commands of a script

A word is a list of parts, each of which knows whether it stands in quotes.  A
command is a tree; redirections and line numbers are kept where they were written.
-/
import LineShell.Script.Text

namespace LineShell.Script

set_option autoImplicit false

/-- What can be asked for after a dollar sign. -/
inductive Parameter where
  | variable (name : Text)
  | position (number : Nat)
  /-- All positions, each a word of its own. -/
  | all
  /-- All positions as one word. -/
  | joined
  | count
  | status
  | shellPid
  | backgroundPid
  | flags
  deriving DecidableEq

/-- What happens when a parameter is not set. -/
inductive Fallback where
  | useDefault
  | assignDefault
  | complain
  /-- The word is used when the parameter is set. -/
  | alternative
  deriving DecidableEq

/-- Which part of a value is cut off. -/
inductive Trim where
  | shortestStart
  | longestStart
  | shortestEnd
  | longestEnd
  deriving DecidableEq

/-- A part of a word. -/
inductive Part where
  | literal (text : Text) (quoted : Bool)
  | value (parameter : Parameter) (quoted : Bool)
  | length (parameter : Parameter) (quoted : Bool)
  | fallback (parameter : Parameter) (kind : Fallback) (emptyIsUnset : Bool) (word : List Part)
      (quoted : Bool)
  | trim (parameter : Parameter) (kind : Trim) (pattern : List Part) (quoted : Bool)
  | arithmetic (expression : List Part) (quoted : Bool)
  /-- The output of the commands in a text. -/
  | output (script : Text) (quoted : Bool)
  /-- A substitution that means nothing. -/
  | meaningless

/-- A word of a script. -/
abbrev Word := List Part

namespace Word

/-- The text of a word that is written without quotes and substitutions. -/
def plain? : Word → Option Text
  | [.literal text false] => some text
  | _ => none

end Word

/-- How a redirection opens or copies. -/
inductive RedirectionKind where
  | read
  | write
  | append
  | readWrite
  | duplicate
  /-- The target is the input itself. -/
  | document
  deriving DecidableEq

/-- A redirection of a descriptor. -/
structure Redirection where
  descriptor : Nat
  kind : RedirectionKind
  target : Word

/-- A variable with the word for its value. -/
structure Assignment where
  name : Text
  value : Word

/-- A command.  Numbers are those of lines. -/
inductive Command where
  | simple (line : Nat) (assignments : List Assignment) (words : List Word)
      (redirections : List Redirection)
  | sequence (first second : Command)
  | andThen (first second : Command)
  | orElse (first second : Command)
  | negated (body : Command)
  | pipeline (left right : Command)
  | background (body : Command)
  | subshell (body : Command)
  | redirected (line : Nat) (body : Command) (redirections : List Redirection)
  | branch (condition yes no : Command)
  /-- Repeat the body while the condition's success is `wanted`. -/
  | repeated (wanted : Bool) (condition body : Command)
  /-- Run the body for each word, or for each position when there is no list. -/
  | each (line : Nat) (name : Text) (words : Option (List Word)) (body : Command)
  | choice (line : Nat) (subject : Word) (arms : List (List Word × Command))
  | define (name : Text) (body : Command)
  | nothing

end LineShell.Script
