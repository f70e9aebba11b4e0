/-
# LineShell.Script.Lexeme -- words and operators in the text of a script

A word ends at a blank, a newline or an operator, unless that stands in quotes or
in a substitution.  Reading is bounded by the length of the text, because every
part takes at least one character.
-/
import LineShell.Script.Tree

namespace LineShell.Script

set_option autoImplicit false

/-- A word or an operator. -/
inductive Lexeme where
  | ofWord (word : Word)
  | redirection (descriptor : Option Nat) (kind : RedirectionKind) (isInput : Bool)
  /-- The lines that follow are the input; blanks at their starts may be dropped. -/
  | document (descriptor : Option Nat) (indented : Bool)
  | operator (spelling : String)
  | newline
  | endOfText

/-- Why there is no lexeme. -/
inductive LexicalError where
  | openQuotes
  | openBackquote
  | openParenthesis
  | missingBrace
  | missingParentheses
  deriving DecidableEq, Repr

namespace LexicalError

def message : LexicalError → String
  | .openQuotes => "Unterminated quoted string"
  | .openBackquote => "EOF in backquote substitution"
  | .openParenthesis => "end of file unexpected (expecting \")\")"
  | .missingBrace => "Missing '\x7d'"
  | .missingParentheses => "Missing '))'"

/-- Whether the error is found at the end of the text, and not where the word starts. -/
def isFoundAtEnd : LexicalError → Bool
  | .openQuotes | .openBackquote | .openParenthesis => true
  | .missingBrace | .missingParentheses => false

end LexicalError

namespace Lexeme

/-- Whether a character ends a word. -/
def isMeta (c : Char) : Bool :=
  Text.isBlank c || c = '\n' || c = ';' || c = '&' || c = '|' || c = '<' || c = '>' || c = '(' || c = ')'

/-- Where a part of a word stands. -/
inductive Mode where
  | plain
  | quoted
  | braced
  | bracedQuoted
  /-- In an expression, with this many open parentheses. -/
  | arithmetic (depth : Nat)
  /-- In lines that are an input, to the end of the text. -/
  | document
  deriving DecidableEq

namespace Mode

def isQuoted : Mode → Bool
  | .plain | .braced => false
  | .quoted | .bracedQuoted | .arithmetic _ | .document => true

/-- Whether the end of the text is an end of the part. -/
def endsWithText : Mode → Bool
  | .plain | .document => true
  | .quoted | .braced | .bracedQuoted | .arithmetic _ => false

/-- What is wrong when the text ends too early. -/
def unterminated : Mode → LexicalError
  | .plain | .quoted | .document => .openQuotes
  | .braced | .bracedQuoted => .missingBrace
  | .arithmetic _ => .missingParentheses

/-- Whether a backslash before the character is dropped. -/
def escapes (mode : Mode) (c : Char) : Bool :=
  match mode with
  | .plain | .braced => true
  | .quoted | .arithmetic _ => c = '$' || c = '`' || c = '"' || c = '\\'
  | .document => c = '$' || c = '`' || c = '\\'
  | .bracedQuoted => c = '$' || c = '`' || c = '"' || c = '\\' || c = '\x7d'

end Mode

/-- Put a character in front of a word. -/
def attach (c : Char) (quoted : Bool) : Word → Word
  | .literal text same :: rest =>
      if same = quoted then .literal (c :: text) quoted :: rest
      else .literal [c] quoted :: .literal text same :: rest
  | word => .literal [c] quoted :: word

/-- The parts of a quoted string.  They make a word even when they are empty, unless the string is just
all positions. -/
def quotedParts : Word → Word
  | [.value .all true] => [.value .all true]
  | parts => .literal [] true :: parts

/-- The text up to a quote, and the rest after it. -/
def untilQuote? : Text → Option (Text × Text)
  | [] => none
  | '\'' :: rest => some ([], rest)
  | c :: rest => (untilQuote? rest).map fun (text, left) => (c :: text, left)

/-- The text up to a backquote, without the backslashes that protect it, and the rest. -/
def untilBackquote? : Text → Option (Text × Text)
  | [] => none
  | '`' :: rest => some ([], rest)
  | '\\' :: c :: rest =>
      (untilBackquote? rest).map fun (text, left) =>
        if c = '`' || c = '\\' || c = '$' then (c :: text, left) else ('\\' :: c :: text, left)
  | c :: rest => (untilBackquote? rest).map fun (text, left) => (c :: text, left)

/-- The text up to the closing parenthesis, quoted strings taken whole, and the rest. -/
def untilParenthesis? (depth : Nat) (quote : Option Char) : Text → Option (Text × Text)
  | [] => none
  | '\\' :: c :: rest =>
      (untilParenthesis? depth quote rest).map fun (text, left) => ('\\' :: c :: text, left)
  | c :: rest =>
      match quote with
      | some opening =>
          (untilParenthesis? depth (if c = opening then none else quote) rest).map
            fun (text, left) => (c :: text, left)
      | none =>
          if c = ')' && depth = 0 then some ([], rest)
          else
            let deeper := if c = '(' then depth + 1 else if c = ')' then depth - 1 else depth
            let quote := if c = '\'' || c = '"' then some c else none
            (untilParenthesis? deeper quote rest).map fun (text, left) => (c :: text, left)

/-- The parameter at the start of a text, if there is one. -/
def parameter? : Text → Option (Parameter × Text)
  | [] => none
  | c :: rest =>
      if Text.isNameStart c then
        some (.variable (c :: rest.takeWhile Text.isNameChar), rest.dropWhile Text.isNameChar)
      else if c.isDigit then some (.position (c.toNat - '0'.toNat), rest)
      else
        match c with
        | '@' => some (.all, rest)
        | '*' => some (.joined, rest)
        | '#' => some (.count, rest)
        | '?' => some (.status, rest)
        | '$' => some (.shellPid, rest)
        | '!' => some (.backgroundPid, rest)
        | '-' => some (.flags, rest)
        | _ => none

/-- The parameter after an opening brace, where a position may have several digits. -/
def bracedParameter? (text : Text) : Option (Parameter × Text) :=
  let digits := text.takeWhile Char.isDigit
  if digits.isEmpty then parameter? text
  else some (.position (Text.decimal digits), text.drop digits.length)

/-- The fallback that a character stands for. -/
def fallback? : Char → Option Fallback
  | '-' => some .useDefault
  | '=' => some .assignDefault
  | '?' => some .complain
  | '+' => some .alternative
  | _ => none

/-- A substitution that means nothing reaches to the closing brace. -/
def meaninglessTo (text : Text) : Except LexicalError (Part × Text) :=
  match text.dropWhile (· ≠ '\x7d') with
  | [] => .error .missingBrace
  | _ :: left => .ok (.meaningless, left)

mutual

/-- The parts up to the end of a word, of quotes, of braces or of an expression. -/
def readParts : Nat → Mode → Text → Except LexicalError (Word × Text)
  | 0, mode, _ => .error mode.unterminated
  | _ + 1, mode, [] => if mode.endsWithText then .ok ([], []) else .error mode.unterminated
  | limit + 1, mode, c :: rest =>
      let literal (c : Char) (quoted : Bool) (rest : Text) : Except LexicalError (Word × Text) := do
        let (word, left) ← readParts limit mode rest
        return (attach c quoted word, left)
      let parts (front : Word) (rest : Text) : Except LexicalError (Word × Text) := do
        let (word, left) ← readParts limit mode rest
        return (front ++ word, left)
      match mode, c with
      | .quoted, '"' => .ok ([], rest)
      | .braced, '\x7d' => .ok ([], rest)
      | .bracedQuoted, '\x7d' => .ok ([], rest)
      | .arithmetic 0, ')' =>
          match rest with
          | ')' :: left => .ok ([], left)
          | _ => .error mode.unterminated
      | .arithmetic (depth + 1), ')' => do
          let (word, left) ← readParts limit (.arithmetic depth) rest
          return (attach ')' true word, left)
      | .arithmetic depth, '(' => do
          let (word, left) ← readParts limit (.arithmetic (depth + 1)) rest
          return (attach '(' true word, left)
      | _, '\\' =>
          match rest with
          | [] => literal '\\' mode.isQuoted []
          | '\n' :: left => readParts limit mode left
          | next :: left =>
              if mode.escapes next then literal next true left else literal '\\' mode.isQuoted rest
      | _, '$' => do
          let (part, left) ← readDollar limit mode.isQuoted rest
          parts [part] left
      | _, '`' =>
          match untilBackquote? rest with
          | none => .error .openBackquote
          | some (script, left) => parts [.output script mode.isQuoted] left
      | .arithmetic _, _ => literal c true rest
      | .quoted, _ => literal c true rest
      | .document, _ => literal c true rest
      | _, '"' => do
          let (inner, left) ← readParts limit .quoted rest
          parts (quotedParts inner) left
      | .bracedQuoted, _ => literal c true rest
      | _, '\'' =>
          match untilQuote? rest with
          | none => .error Mode.quoted.unterminated
          | some (text, left) => parts [.literal text true] left
      | .plain, _ => if isMeta c then .ok ([], c :: rest) else literal c false rest
      | .braced, _ => literal c false rest

/-- The part that a dollar sign starts. -/
def readDollar : Nat → Bool → Text → Except LexicalError (Part × Text)
  | 0, _, _ => .error Mode.plain.unterminated
  | limit + 1, quoted, '(' :: '(' :: rest => do
      let (expression, left) ← readParts limit (.arithmetic 0) rest
      return (.arithmetic expression quoted, left)
  | _ + 1, quoted, '(' :: rest =>
      match untilParenthesis? 0 none rest with
      | none => .error .openParenthesis
      | some (script, left) => .ok (.output script quoted, left)
  | limit + 1, quoted, '\x7b' :: rest => readBraces limit quoted rest
  | _ + 1, quoted, text =>
      match parameter? text with
      | some (parameter, left) => .ok (.value parameter quoted, left)
      | none => .ok (.literal ['$'] quoted, text)

/-- The part in braces after a dollar sign. -/
def readBraces : Nat → Bool → Text → Except LexicalError (Part × Text)
  | 0, _, _ => .error Mode.braced.unterminated
  | _ + 1, _, [] => .error Mode.braced.unterminated
  | limit + 1, quoted, text =>
      let inner : Mode := if quoted then .bracedQuoted else .braced
      let asLength : Option (Part × Text) :=
        match text with
        | '#' :: rest =>
            match bracedParameter? rest with
            | some (parameter, '\x7d' :: left) => some (.length parameter quoted, left)
            | _ => none
        | _ => none
      match asLength, bracedParameter? text with
      | some found, _ => .ok found
      | none, none => meaninglessTo text
      | none, some (parameter, rest) =>
          let fallback (kind : Fallback) (emptyIsUnset : Bool) (rest : Text) :
              Except LexicalError (Part × Text) := do
            let (word, left) ← readParts limit inner rest
            return (.fallback parameter kind emptyIsUnset word quoted, left)
          let trim (kind : Trim) (rest : Text) : Except LexicalError (Part × Text) := do
            let (pattern, left) ← readParts limit .braced rest
            return (.trim parameter kind pattern quoted, left)
          match rest with
          | [] => .error inner.unterminated
          | '\x7d' :: left => .ok (.value parameter quoted, left)
          | '%' :: '%' :: left => trim .longestEnd left
          | '%' :: left => trim .shortestEnd left
          | '#' :: '#' :: left => trim .longestStart left
          | '#' :: left => trim .shortestStart left
          | ':' :: c :: left =>
              match fallback? c with
              | some kind => fallback kind true left
              | none => meaninglessTo rest
          | c :: left =>
              match fallback? c with
              | some kind => fallback kind false left
              | none => meaninglessTo rest

end

/-- The text without the blanks and the comment in front of a lexeme. -/
def skipBlanks : Text → Text
  | ' ' :: rest => skipBlanks rest
  | '\t' :: rest => skipBlanks rest
  | '\\' :: '\n' :: rest => skipBlanks rest
  | '#' :: rest => rest.dropWhile (· ≠ '\n')
  | text => text

/-- The redirection that starts with an angle bracket. -/
def redirection? (descriptor : Option Nat) : Text → Option (Lexeme × Text)
  | '>' :: '>' :: rest => some (.redirection descriptor .append false, rest)
  | '>' :: '&' :: rest => some (.redirection descriptor .duplicate false, rest)
  | '>' :: '|' :: rest => some (.redirection descriptor .write false, rest)
  | '>' :: rest => some (.redirection descriptor .write false, rest)
  | '<' :: '&' :: rest => some (.redirection descriptor .duplicate true, rest)
  | '<' :: '>' :: rest => some (.redirection descriptor .readWrite true, rest)
  | '<' :: '<' :: '-' :: rest => some (.document descriptor true, rest)
  | '<' :: '<' :: rest => some (.document descriptor false, rest)
  | '<' :: rest => some (.redirection descriptor .read true, rest)
  | _ => none

/-- The operator at the start of a text. -/
def operator? : Text → Option (Lexeme × Text)
  | '\n' :: rest => some (.newline, rest)
  | '&' :: '&' :: rest => some (.operator "&&", rest)
  | '&' :: rest => some (.operator "&", rest)
  | '|' :: '|' :: rest => some (.operator "||", rest)
  | '|' :: rest => some (.operator "|", rest)
  | ';' :: ';' :: rest => some (.operator ";;", rest)
  | ';' :: rest => some (.operator ";", rest)
  | '(' :: rest => some (.operator "(", rest)
  | ')' :: rest => some (.operator ")", rest)
  | text =>
      match redirection? none text with
      | some found => some found
      | none =>
          let digits := text.takeWhile Char.isDigit
          if digits.isEmpty then none
          else redirection? (some (Text.decimal digits)) (text.drop digits.length)

/-- The first lexeme of a text, and the rest. -/
def first (text : Text) : Except LexicalError (Lexeme × Text) :=
  match skipBlanks text with
  | [] => .ok (.endOfText, [])
  | text =>
      match operator? text with
      | some found => .ok found
      | none => do
          let (word, left) ← readParts (2 * text.length + 2) .plain text
          return (.ofWord word, left)

/-- The parts of lines that are an input. -/
def ofDocument (text : Text) : Except LexicalError Word :=
  (readParts (2 * text.length + 2) .document text).map Prod.fst

/-- How a lexeme is called in a message. -/
def shown : Lexeme → String
  | .ofWord word =>
      match Word.plain? word with
      | some text => "\"" ++ String.ofList text ++ "\""
      | none => "word"
  | .redirection _ _ _ | .document _ _ => "redirection"
  | .operator spelling => "\"" ++ spelling ++ "\""
  | .newline => "newline"
  | .endOfText => "end of file"

end Lexeme

end LineShell.Script
