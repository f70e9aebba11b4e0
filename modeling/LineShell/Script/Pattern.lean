/-
# LineShell.Script.Pattern -- patterns for texts

A pattern is matched against a whole text.  Quoted characters stand for
themselves; of the others `*`, `?` and brackets have a meaning.
-/
import LineShell.Script.Text

namespace LineShell.Script

set_option autoImplicit false

/-- A range of characters in brackets. -/
structure CharRange where
  low : Char
  high : Char
  deriving DecidableEq

/-- A piece of a pattern. -/
inductive Atom where
  | exactly (c : Char)
  | anyText
  | anyChar
  | oneOf (negated : Bool) (ranges : List CharRange)
  deriving DecidableEq

/-- A pattern for a text. -/
abbrev Pattern := List Atom

/-- A character of a word, and whether it was quoted. -/
structure Glyph where
  char : Char
  quoted : Bool
  deriving DecidableEq

namespace Pattern

/-- The ranges up to the closing bracket, which is a member when it comes first, and the rest. -/
def ranges? (atStart : Bool) : List Glyph → Option (List CharRange × List Glyph)
  | [] => none
  | low :: hyphen :: high :: rest =>
      if low.char = ']' && !low.quoted && !atStart then some ([], hyphen :: high :: rest)
      else if hyphen.char = '-' && !hyphen.quoted && !(high.char = ']' && !high.quoted) then
        (ranges? false rest).map fun (ranges, left) => (⟨low.char, high.char⟩ :: ranges, left)
      else
        (ranges? false (hyphen :: high :: rest)).map fun (ranges, left) =>
          (⟨low.char, low.char⟩ :: ranges, left)
  | low :: rest =>
      if low.char = ']' && !low.quoted && !atStart then some ([], rest)
      else (ranges? false rest).map fun (ranges, left) => (⟨low.char, low.char⟩ :: ranges, left)

/-- Read the brackets at the start of a list, the opening one taken. -/
def brackets? (glyphs : List Glyph) : Option (Atom × List Glyph) :=
  match glyphs with
  | ⟨'!', false⟩ :: rest =>
      (ranges? true rest).map fun (ranges, left) => (.oneOf true ranges, left)
  | _ => (ranges? true glyphs).map fun (ranges, left) => (.oneOf false ranges, left)

/-- Read a pattern of at most `limit` pieces. -/
def readWithin : Nat → List Glyph → Pattern
  | 0, _ => []
  | _ + 1, [] => []
  | limit + 1, ⟨c, true⟩ :: rest => .exactly c :: readWithin limit rest
  | limit + 1, ⟨c, false⟩ :: rest =>
      match c with
      | '*' => .anyText :: readWithin limit rest
      | '?' => .anyChar :: readWithin limit rest
      | '[' =>
          match brackets? rest with
          | some (atom, left) => atom :: readWithin limit left
          | none => .exactly '[' :: readWithin limit rest
      | '\\' =>
          match rest with
          | next :: left => .exactly next.char :: readWithin limit left
          | [] => [.exactly '\\']
      | _ => .exactly c :: readWithin limit rest

/-- Read a pattern. -/
def ofGlyphs (glyphs : List Glyph) : Pattern :=
  readWithin glyphs.length glyphs

/-- Whether one character fits a piece that stands for one. -/
def Atom.fits (atom : Atom) (c : Char) : Bool :=
  match atom with
  | .exactly expected => expected = c
  | .anyText => false
  | .anyChar => true
  | .oneOf negated ranges =>
      (ranges.any fun range => decide (range.low ≤ c) && decide (c ≤ range.high)) != negated

/-- Whether a pattern matches the whole text. -/
def covers : Pattern → Text → Bool
  | [], text => text.isEmpty
  | .anyText :: pattern, [] => covers pattern []
  | .anyText :: pattern, c :: text => covers pattern (c :: text) || covers (.anyText :: pattern) text
  | _ :: _, [] => false
  | atom :: pattern, c :: text => Atom.fits atom c && covers pattern text
termination_by pattern text => pattern.length + text.length

/-- The lengths at which a text can be cut, shortest first. -/
def cuts (text : Text) : List Nat :=
  List.range (text.length + 1)

/-- The text without a start that the pattern matches. -/
def trimStart (pattern : Pattern) (longest : Bool) (text : Text) : Text :=
  let order := if longest then (cuts text).reverse else cuts text
  match order.find? fun length => pattern.covers (text.take length) with
  | some length => text.drop length
  | none => text

/-- The text without an end that the pattern matches. -/
def trimEnd (pattern : Pattern) (longest : Bool) (text : Text) : Text :=
  let order := if longest then cuts text else (cuts text).reverse
  match order.find? fun length => pattern.covers (text.drop length) with
  | some length => text.take length
  | none => text

end Pattern

end LineShell.Script
