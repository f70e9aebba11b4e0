/-
# LineShell.Script.Reader -- reading commands from the text of a script

A script is read one complete command at a time, so that a mistake further down
shows only after everything before it has run.  `Reader.complete` reads the next
one.  Reading is bounded by the length of the text: each command takes at least
one lexeme.
-/
import LineShell.Script.Lexeme

namespace LineShell.Script

set_option autoImplicit false

/-- Text that cannot be read, and the line where that was found. -/
structure Fault where
  line : Nat
  message : String
  deriving DecidableEq, Repr

/-- What is left of a script: a lexeme that was looked at, the text after it, and its line. -/
structure Cursor where
  seen : Option Lexeme
  text : Text
  line : Nat

/-- A step of reading. -/
abbrev Reader := StateT Cursor (Except Fault)

namespace Reader

def fail {α : Type} (message : String) : Reader α := do
  let cursor ← get
  throw ⟨cursor.line, "Syntax error: " ++ message⟩

/-- Report what is wrong with the text, in the line where that is found. -/
def failAt {α : Type} (error : LexicalError) : Reader α := do
  let cursor ← get
  let further := if error.isFoundAtEnd then cursor.text.count '\n' else 0
  set { cursor with line := cursor.line + further }
  fail error.message

/-- Take the next lexeme. -/
def next : Reader Lexeme := do
  let cursor ← get
  match cursor.seen with
  | some lexeme =>
      set { cursor with seen := none }
      return lexeme
  | none =>
      match Lexeme.first cursor.text with
      | .error error => failAt error
      | .ok (lexeme, rest) =>
          let consumed := cursor.text.take (cursor.text.length - rest.length)
          set (⟨none, rest, cursor.line + consumed.count '\n'⟩ : Cursor)
          return lexeme

/-- Look at the next lexeme. -/
def peek : Reader Lexeme := do
  let lexeme ← next
  modify fun cursor => { cursor with seen := some lexeme }
  return lexeme

def skip : Reader Unit := do
  let _ ← next

def line : Reader Nat :=
  return (← get).line

/-- The word that a lexeme spells plainly. -/
def keyword? : Lexeme → Option String
  | .ofWord word => word.plain?.map String.ofList
  | _ => none

/-- Whether a lexeme is an operator. -/
def isOperator (spelling : String) : Lexeme → Bool
  | .operator found => found = spelling
  | _ => false

/-- The words that end a list of commands. -/
def closers : List String :=
  ["then", "else", "elif", "fi", "do", "done", "esac", "\x7d"]

/-- Whether a lexeme ends a list of commands. -/
def closesList (lexeme : Lexeme) : Bool :=
  match lexeme with
  | .endOfText => true
  | .operator spelling => spelling = ")" || spelling = ";;"
  | _ => (keyword? lexeme).any fun word => closers.contains word

def unexpected {α : Type} (lexeme : Lexeme) : Reader α :=
  fail (lexeme.shown ++ " unexpected")

/-- Take a word that has to come next. -/
def expect (word : String) : Reader Unit := do
  let lexeme ← next
  if keyword? lexeme = some word || isOperator word lexeme then return ()
  else fail (lexeme.shown ++ " unexpected (expecting \"" ++ word ++ "\")")

/-- Skip empty lines, at most `limit`. -/
def skipNewlines : Nat → Reader Unit
  | 0 => return ()
  | limit + 1 => do
      match ← peek with
      | .newline =>
          skip
          skipNewlines limit
      | _ => return ()

/-- The redirection that a lexeme starts, whose target is the next word. -/
def redirection (descriptor : Option Nat) (kind : RedirectionKind) (isInput : Bool) :
    Reader Redirection := do
  match ← next with
  | .ofWord word => return ⟨descriptor.getD (if isInput then 0 else 1), kind, word⟩
  | lexeme => unexpected lexeme

/-- The lines up to a delimiter, and the text after that. -/
def documentLines (delimiter : Text) (indented : Bool) : Nat → Text → Text × Text
  | 0, text => ([], text)
  | _ + 1, [] => ([], [])
  | limit + 1, text =>
      let line := text.takeWhile (· ≠ '\n')
      let rest := (text.drop line.length).drop 1
      let shown := if indented then line.dropWhile (· = '\t') else line
      if shown = delimiter then ([], rest)
      else
        let (lines, left) := documentLines delimiter indented limit rest
        (shown ++ '\n' :: lines, left)

/-- The text of a word without its quotes, and whether it had some. -/
def delimiterOf : Word → Text × Bool
  | [] => ([], false)
  | .literal text quoted :: rest =>
      let (later, anyQuoted) := delimiterOf rest
      (text ++ later, quoted || anyQuoted)
  | _ :: rest => delimiterOf rest

/-- The redirection from the lines after the current one, which are taken out of the text. -/
def document (descriptor : Option Nat) (indented : Bool) : Reader Redirection := do
  match ← next with
  | .ofWord word =>
      let (delimiter, isQuoted) := delimiterOf word
      let cursor ← get
      let current := cursor.text.takeWhile (· ≠ '\n')
      let after := (cursor.text.drop current.length).drop 1
      let (lines, left) := documentLines delimiter indented (after.length + 1) after
      set { cursor with text := current ++ '\n' :: left }
      let target ←
        if isQuoted then pure [.literal lines true]
        else
          match Lexeme.ofDocument lines with
          | .ok word => pure word
          | .error error => failAt error
      return ⟨descriptor.getD 0, .document, target⟩
  | lexeme => unexpected lexeme

/-- The redirections that come next, at most `limit`. -/
def redirections : Nat → Reader (List Redirection)
  | 0 => return []
  | limit + 1 => do
      match ← peek with
      | .redirection descriptor kind isInput =>
          skip
          let first ← redirection descriptor kind isInput
          return first :: (← redirections limit)
      | .document descriptor indented =>
          skip
          let first ← document descriptor indented
          return first :: (← redirections limit)
      | _ => return []

/-- A word that assigns a value. -/
def assignment? : Word → Option Assignment
  | .literal text false :: rest =>
      let name := text.takeWhile (· ≠ '=')
      match text.drop name.length with
      | '=' :: value =>
          if Text.isName name then
            some ⟨name, if value.isEmpty then rest else .literal value false :: rest⟩
          else none
      | _ => none
  | _ => none

/-- The rest of a simple command, at most `limit` lexemes. -/
def simpleRest (start : Nat) :
    Nat → List Assignment → List Word → List Redirection → Reader Command
  | 0, assignments, words, redirections =>
      return .simple start assignments.reverse words.reverse redirections.reverse
  | limit + 1, assignments, words, redirections => do
      match ← peek with
      | .ofWord word =>
          skip
          match assignment? word, words with
          | some assignment, [] => simpleRest start limit (assignment :: assignments) [] redirections
          | _, _ => simpleRest start limit assignments (word :: words) redirections
      | .redirection descriptor kind isInput =>
          skip
          let found ← redirection descriptor kind isInput
          simpleRest start limit assignments words (found :: redirections)
      | .document descriptor indented =>
          skip
          let found ← document descriptor indented
          simpleRest start limit assignments words (found :: redirections)
      | _ => return .simple start assignments.reverse words.reverse redirections.reverse

/-- The words up to the end of a line, at most `limit`. -/
def wordsToEnd : Nat → Reader (List Word)
  | 0 => return []
  | limit + 1 => do
      match ← next with
      | .ofWord word => return word :: (← wordsToEnd limit)
      | .newline => return []
      | .operator ";" => return []
      | lexeme => unexpected lexeme

/-- The patterns in front of a closing parenthesis, at most `limit`. -/
def patterns : Nat → Reader (List Word)
  | 0 => return []
  | limit + 1 => do
      match ← next with
      | .ofWord word =>
          match ← next with
          | .operator "|" => return word :: (← patterns limit)
          | .operator ")" => return [word]
          | lexeme => missingParenthesis lexeme
      | lexeme => missingParenthesis lexeme
where
  missingParenthesis (lexeme : Lexeme) : Reader (List Word) :=
    fail (lexeme.shown ++ " unexpected (expecting \")\")")

/-- Put redirections around a command, if there are any. -/
def wrap (start : Nat) (body : Command) (redirections : List Redirection) : Command :=
  if redirections.isEmpty then body else .redirected start body redirections

mutual

/-- Commands up to a word or an operator that closes the list. -/
def list : Nat → Reader Command
  | 0 => fail "too long"
  | limit + 1 => do
      skipNewlines limit
      if closesList (← peek) then return .nothing
      else
        let first ← andOr limit
        match ← peek with
        | .newline =>
            skip
            return .sequence first (← list limit)
        | .operator ";" =>
            skip
            return .sequence first (← list limit)
        | .operator "&" =>
            skip
            return .sequence (.background first) (← list limit)
        | lexeme => if closesList lexeme then return first else unexpected lexeme

/-- Pipelines joined by `&&` and `||`. -/
def andOr : Nat → Reader Command
  | 0 => fail "too long"
  | limit + 1 => do
      let first ← pipeline limit
      andOrRest limit first

def andOrRest : Nat → Command → Reader Command
  | 0, _ => fail "too long"
  | limit + 1, first => do
      match ← peek with
      | .operator "&&" =>
          skip
          skipNewlines limit
          let second ← pipeline limit
          andOrRest limit (.andThen first second)
      | .operator "||" =>
          skip
          skipNewlines limit
          let second ← pipeline limit
          andOrRest limit (.orElse first second)
      | _ => return first

/-- Commands joined by `|`. -/
def pipeline : Nat → Reader Command
  | 0 => fail "too long"
  | limit + 1 => do
      if keyword? (← peek) = some "!" then
        skip
        return .negated (← pipeline limit)
      else
        let first ← command limit
        match ← peek with
        | .operator "|" =>
            skip
            skipNewlines limit
            return .pipeline first (← pipeline limit)
        | _ => return first

/-- One command. -/
def command : Nat → Reader Command
  | 0 => fail "too long"
  | limit + 1 => do
      let lexeme ← peek
      let start ← line
      match lexeme with
      | .operator "(" =>
          skip
          let body ← list limit
          expect ")"
          return wrap start (.subshell body) (← redirections limit)
      | .redirection _ _ _ => simpleRest start (limit + 1) [] [] []
      | .document _ _ => simpleRest start (limit + 1) [] [] []
      | .ofWord word =>
          match keyword? lexeme with
          | some "if" =>
              skip
              let body ← conditional limit
              return wrap start body (← redirections limit)
          | some "while" => loop limit start true
          | some "until" => loop limit start false
          | some "for" => forEach limit start
          | some "case" => choice limit start
          | some "\x7b" =>
              skip
              let body ← list limit
              expect "\x7d"
              return wrap start body (← redirections limit)
          | some plain =>
              if closers.contains plain then unexpected lexeme
              else
                skip
                match ← peek with
                | .operator "(" =>
                    skip
                    expect ")"
                    skipNewlines limit
                    return .define (Text.ofString plain) (← command limit)
                | _ =>
                    match assignment? word with
                    | some assignment => simpleRest start limit [assignment] [] []
                    | none => simpleRest start limit [] [word] []
          | none => simpleRest start (limit + 1) [] [] []
      | lexeme => unexpected lexeme

/-- What follows `if` or `elif`. -/
def conditional : Nat → Reader Command
  | 0 => fail "too long"
  | limit + 1 => do
      let condition ← list limit
      expect "then"
      let yes ← list limit
      let lexeme ← next
      match keyword? lexeme with
      | some "fi" => return .branch condition yes .nothing
      | some "elif" => return .branch condition yes (← conditional limit)
      | some "else" =>
          let no ← list limit
          expect "fi"
          return .branch condition yes no
      | _ => fail (lexeme.shown ++ " unexpected (expecting \"fi\")")

/-- The lines between `do` and `done`. -/
def body : Nat → Reader Command
  | 0 => fail "too long"
  | limit + 1 => do
      skipNewlines limit
      expect "do"
      let commands ← list limit
      expect "done"
      return commands

def loop : Nat → Nat → Bool → Reader Command
  | 0, _, _ => fail "too long"
  | limit + 1, start, wanted => do
      skip
      let condition ← list limit
      let commands ← body limit
      return wrap start (.repeated wanted condition commands) (← redirections limit)

def forEach : Nat → Nat → Reader Command
  | 0, _ => fail "too long"
  | limit + 1, start => do
      skip
      match (keyword? (← next)).filter fun name => Text.isName (Text.ofString name) with
      | none => fail "Bad for loop variable"
      | some name =>
          skipNewlines limit
          let words : Option (List Word) ←
            match ← peek with
            | .operator ";" => do
                skip
                pure none
            | lexeme =>
                if keyword? lexeme = some "in" then do
                  skip
                  pure (some (← wordsToEnd limit))
                else pure none
          let commands ← body limit
          return wrap start (.each start (Text.ofString name) words commands) (← redirections limit)

def choice : Nat → Nat → Reader Command
  | 0, _ => fail "too long"
  | limit + 1, start => do
      skip
      match ← next with
      | .ofWord subject =>
          skipNewlines limit
          expect "in"
          let found ← arms limit
          return wrap start (.choice start subject found) (← redirections limit)
      | lexeme => unexpected lexeme

def arms : Nat → Reader (List (List Word × Command))
  | 0 => fail "too long"
  | limit + 1 => do
      skipNewlines limit
      let lexeme ← peek
      if keyword? lexeme = some "esac" then
        skip
        return []
      else
        if isOperator "(" lexeme then skip
        let heads ← patterns limit
        let commands ← list limit
        if isOperator ";;" (← peek) then skip
        return (heads, commands) :: (← arms limit)

end

/-- The rest of a line of commands, at most `limit`. -/
def lineRest : Nat → Command → Reader Command
  | 0, _ => fail "too long"
  | limit + 1, first => do
      match ← next with
      | .newline => return first
      | .endOfText => return first
      | .operator ";" => more limit first
      | .operator "&" => more limit (.background first)
      | lexeme => unexpected lexeme
where
  more (limit : Nat) (first : Command) : Reader Command := do
    match ← peek with
    | .newline =>
        skip
        return first
    | .endOfText => return first
    | _ =>
        let second ← andOr limit
        return .sequence first (← lineRest limit second)

/-- The next complete command; nothing at the end of the text. -/
def complete : Reader (Option Command) := do
  let limit := 8 * (← get).text.length + 16
  skipNewlines limit
  match ← peek with
  | .endOfText => return none
  | _ =>
      let first ← andOr limit
      return some (← lineRest limit first)

/-- Read the next complete command of a text that starts in a line. -/
def readCommand (text : Text) (line : Nat) : Except Fault (Option Command × Text × Nat) :=
  match complete.run ⟨none, text, line⟩ with
  | .error fault => .error fault
  | .ok (found, cursor) => .ok (found, cursor.text, cursor.line)

end Reader

end LineShell.Script
