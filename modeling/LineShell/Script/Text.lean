/-
# LineShell.Script.Text -- the text of scripts

Scripts work on bytes.  Their text is kept as a list of characters, each of which
stands for the byte of its number, so that the characters of the language can be
written as they are; `Text.toBytes_ofBytes` says that nothing is lost.
-/
import LineShell.Bytes

namespace LineShell.Script

set_option autoImplicit false

/-- A byte string with one character per byte. -/
abbrev Text := List Char

namespace Text

def ofBytes (bytes : Bytes) : Text :=
  bytes.map fun byte => Char.ofNat byte.toNat

def toBytes (text : Text) : Bytes :=
  text.map fun c => UInt8.ofNat c.toNat

/-- The text of an ASCII string. -/
def ofString (string : String) : Text :=
  string.toList

theorem toNat_ofNat_byte (byte : UInt8) : (Char.ofNat byte.toNat).toNat = byte.toNat := by
  have small : byte.toNat < 256 := byte.toNat_lt
  have valid : byte.toNat.isValidChar := Or.inl (by omega)
  rw [Char.ofNat, dif_pos valid]
  rfl

theorem toBytes_ofBytes (bytes : Bytes) : toBytes (ofBytes bytes) = bytes := by
  induction bytes with
  | nil => rfl
  | cons byte rest ih =>
      simp only [ofBytes, toBytes, List.map_cons, toNat_ofNat_byte] at ih ⊢
      rw [ih]
      simp

/-! ## Characters -/

def isNameStart (c : Char) : Bool :=
  c.isAlpha || c = '_'

def isNameChar (c : Char) : Bool :=
  c.isAlphanum || c = '_'

/-- Whether a text can be the name of a variable. -/
def isName : Text → Bool
  | [] => false
  | c :: rest => isNameStart c && rest.all isNameChar

/-- Blanks within a line. -/
def isBlank (c : Char) : Bool :=
  c = ' ' || c = '\t'

/-- White space in numbers. -/
def isSpace (c : Char) : Bool :=
  c = ' ' || ('\t' ≤ c && c ≤ '\x0d')

/-! ## Numbers -/

/-- Whether a text consists of digits, at least one. -/
def isNumber (text : Text) : Bool :=
  !text.isEmpty && text.all Char.isDigit

/-- The value of a digit up to `z`. -/
def digit? (base : Nat) (c : Char) : Option Nat :=
  let value :=
    if c.isDigit then c.toNat - '0'.toNat
    else if c.isAlpha then c.toLower.toNat - 'a'.toNat + 10
    else base
  if value < base then some value else none

/-- The value of the digits at the start of a text, and the rest. -/
def readDigits (base : Nat) : Nat → Text → Nat × Text
  | value, [] => (value, [])
  | value, c :: rest =>
      match digit? base c with
      | some digit => readDigits base (value * base + digit) rest
      | none => (value, c :: rest)

/-- The value of a text of decimal digits. -/
def decimal (text : Text) : Nat :=
  (readDigits 10 0 text).1

/-- The number that a text spells in decimal digits, with an optional sign and white space around it. -/
def wholeDecimal? (text : Text) : Option Int :=
  let trimmed := text.dropWhile isSpace
  let magnitude := if trimmed.head? = some '-' || trimmed.head? = some '+' then trimmed.drop 1 else trimmed
  let digits := magnitude.takeWhile Char.isDigit
  if digits.isEmpty || !((magnitude.drop digits.length).dropWhile isSpace).isEmpty then none
  else some (if trimmed.head? = some '-' then -(decimal digits : Int) else decimal digits)

/-- A number in decimal digits. -/
def ofNat (number : Nat) : Text :=
  ofString (toString number)

def ofInt (number : Int) : Text :=
  ofString (toString number)

/-- The digits of a number that is not zero, in front of `below`. -/
def digitsBefore (base : Nat) (upper : Bool) : Nat → Nat → Text → Text
  | 0, _, below => below
  | limit + 1, number, below =>
      if number = 0 then below
      else
        let c := Nat.digitChar (number % base)
        digitsBefore base upper limit (number / base) ((if upper then c.toUpper else c) :: below)

/-- A number in a base up to sixteen. -/
def inBase (base : Nat) (upper : Bool) (number : Nat) : Text :=
  if number = 0 then ['0'] else digitsBefore base upper 64 number []

/-! ## Pieces -/

/-- `text` without what it starts with, if it does. -/
def stripStart? : Text → Text → Option Text
  | [], text => some text
  | _ :: _, [] => none
  | expected :: more, c :: rest => if expected = c then stripStart? more rest else none

/-- Texts with `separator` between them. -/
def joinWith (separator : Text) : List Text → Text
  | [] => []
  | [last] => last
  | first :: rest => first ++ separator ++ joinWith separator rest

end Text

end LineShell.Script
