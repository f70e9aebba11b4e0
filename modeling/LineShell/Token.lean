/-
# LineShell.Token -- the words of a line, classified

Three words are operators when they stand alone: `<` and `>` take the word after
them as a file name, `|` joins two commands.  Glued to other characters they are
plain text, and there is no quoting.  `Token.ofWords` classifies the words from
left to right; the only thing that can go wrong here is an operator without a
file name, and the leftmost one is reported.

`Token.spelling` writes a token back, and `spelling_ofWords` says that nothing
is lost.
-/
import LineShell.Blank
import LineShell.Command

namespace LineShell

set_option autoImplicit false

/-- Why a line means nothing. -/
inductive ParseError where
  | empty
  | missingTarget (direction : Direction)
  | duplicateRedirect (direction : Direction)
  | missingCommand
  | tooManyStages
  deriving DecidableEq, Repr

namespace ParseError

def message : ParseError → String
  | .empty => "empty line"
  | .missingTarget direction => "missing file name after `" ++ direction.operator ++ "`"
  | .duplicateRedirect direction => "more than one `" ++ direction.operator ++ "` redirection"
  | .missingCommand => "missing command"
  | .tooManyStages => "only a single `|` is supported"

end ParseError

/-- The operators of a line. -/
inductive Operator where
  | redirect (direction : Direction)
  | pipe
  deriving DecidableEq

namespace Operator

def spelling : Operator → String
  | .redirect direction => direction.operator
  | .pipe => "|"

/-- The operator that a word is, if it is one. -/
def ofWord? (word : String) : Option Operator :=
  if word = "<" then some (.redirect .input)
  else if word = ">" then some (.redirect .output)
  else if word = "|" then some .pipe
  else none

theorem spelling_of_ofWord? {word : String} {operator : Operator}
    (read : ofWord? word = some operator) : operator.spelling = word := by
  unfold ofWord? at read
  split at read
  · next is => cases read; exact is.symm
  · split at read
    · next is => cases read; exact is.symm
    · split at read
      · next is => cases read; exact is.symm
      · simp at read

end Operator

/-- A classified piece of a line. -/
inductive Token where
  | word (text : String)
  | redirect (direction : Direction) (target : String)
  | pipe
  deriving DecidableEq

namespace Token

/-- The words that a token was read from. -/
def spelling : Token → List String
  | .word text => [text]
  | .redirect direction target => [direction.operator, target]
  | .pipe => ["|"]

/-- Classify the words of a line, left to right. -/
def ofWords : List String → Except ParseError (List Token)
  | [] => .ok []
  | first :: rest =>
      match Operator.ofWord? first with
      | none => (ofWords rest).map (Token.word first :: ·)
      | some .pipe => (ofWords rest).map (Token.pipe :: ·)
      | some (.redirect direction) =>
          match rest with
          | [] => .error (.missingTarget direction)
          | target :: later =>
              if (Operator.ofWord? target).isSome then .error (.missingTarget direction)
              else (ofWords later).map (Token.redirect direction target :: ·)

/-- The tokens of a line. -/
def ofLine (line : String) : Except ParseError (List Token) :=
  ofWords (words line)

/-- Classifying loses nothing: the tokens spell the words they were read from. -/
theorem spelling_ofWords {ws : List String} {tokens : List Token}
    (read : ofWords ws = .ok tokens) : tokens.flatMap spelling = ws := by
  fun_induction ofWords ws generalizing tokens with
  | case1 => cases read; rfl
  | case2 first rest plain ih =>
      cases inner : ofWords rest with
      | error e => rw [inner] at read; simp [Except.map] at read
      | ok ts =>
          rw [inner] at read
          obtain rfl : Token.word first :: ts = tokens := by simpa [Except.map] using read
          simp [spelling, ih inner]
  | case3 first rest bar ih =>
      cases inner : ofWords rest with
      | error e => rw [inner] at read; simp [Except.map] at read
      | ok ts =>
          rw [inner] at read
          obtain rfl : Token.pipe :: ts = tokens := by simpa [Except.map] using read
          have spelt := Operator.spelling_of_ofWord? bar
          simp [spelling, ih inner, ← spelt, Operator.spelling]
  | case4 first direction bare => simp at read
  | case5 first direction arrow target later _ => simp at read
  | case6 first direction arrow target later _ ih =>
      cases inner : ofWords later with
      | error e => rw [inner] at read; simp [Except.map] at read
      | ok ts =>
          rw [inner] at read
          obtain rfl : Token.redirect direction target :: ts = tokens := by
            simpa [Except.map] using read
          have spelt := Operator.spelling_of_ofWord? arrow
          simp [spelling, ih inner, ← spelt, Operator.spelling]

end Token

end LineShell
