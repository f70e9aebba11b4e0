/-
# LineShell.Script.Format -- formatted output and escapes

A format is used again and again as long as arguments are left; arguments that are
missing are empty, or zero.  A number that is not one is reported and the output
goes on with the part that could be read.
-/
import LineShell.Script.Arithmetic

namespace LineShell.Script

set_option autoImplicit false

namespace Format

/-- What a backslash and the characters after it stand for. -/
inductive Escape where
  | char (c : Char) (rest : Text)
  /-- The output ends here. -/
  | stop
  /-- The backslash stands for itself. -/
  | plain

/-- The character of a one-letter escape. -/
def letter? : Char → Option Char
  | 'a' => some '\x07'
  | 'b' => some '\x08'
  | 'e' => some '\x1b'
  | 'f' => some '\x0c'
  | 'n' => some '\n'
  | 'r' => some '\r'
  | 't' => some '\t'
  | 'v' => some '\x0b'
  | '\\' => some '\\'
  | _ => none

def isOctal (c : Char) : Bool :=
  '0' ≤ c && c ≤ '7'

/-- The byte that at most `count` octal digits spell, and the rest. -/
def octal (count : Nat) (text : Text) : Char × Text :=
  let digits := (text.take count).takeWhile isOctal
  (Char.ofNat ((Text.readDigits 8 0 digits).1 % 256), text.drop digits.length)

/-- The escape after a backslash in a format. -/
def inFormat : Text → Escape
  | [] => .plain
  | c :: rest =>
      if isOctal c then
        let (byte, left) := octal 3 (c :: rest)
        .char byte left
      else
        match letter? c with
        | some plain => .char plain rest
        | none => if c = '"' || c = '\'' then .char c rest else .plain

/-- The escape after a backslash in an argument: octal digits follow a zero, and `c` ends the output. -/
def inArgument : Text → Escape
  | [] => .plain
  | 'c' :: _ => .stop
  | '0' :: rest =>
      let (byte, left) := octal 3 rest
      .char byte left
  | c :: rest =>
      if isOctal c then
        let (byte, left) := octal 3 (c :: rest)
        .char byte left
      else
        match letter? c with
        | some plain => .char plain rest
        | none => .plain

/-- Resolve the escapes of an argument, at most `limit`; whether the output ends there. -/
def unescapeWithin : Nat → Text → Text × Bool
  | 0, text => (text, false)
  | _ + 1, [] => ([], false)
  | limit + 1, c :: rest =>
      if c = '\\' then
        match inArgument rest with
        | .stop => ([], true)
        | .plain =>
            let (text, stops) := unescapeWithin limit rest
            ('\\' :: text, stops)
        | .char byte left =>
            let (text, stops) := unescapeWithin limit left
            (byte :: text, stops)
      else
        let (text, stops) := unescapeWithin limit rest
        (c :: text, stops)

def unescape (text : Text) : Text × Bool :=
  if text.contains '\\' then unescapeWithin text.length text else (text, false)

/-- How a conversion is laid out. -/
structure Layout where
  left : Bool
  zeros : Bool
  plus : Bool
  blank : Bool
  alternate : Bool
  width : Nat
  precision : Option Nat
  deriving DecidableEq

/-- What has been written so far, and the arguments that are left. -/
structure Progress where
  /-- The pieces of the output, the last first. -/
  pieces : List Text
  arguments : List Text
  complaints : List String
  stopped : Bool

namespace Progress

def write (progress : Progress) (piece : Text) : Progress :=
  { progress with pieces := piece :: progress.pieces }

/-- Take an argument. -/
def take (progress : Progress) : Option Text × Progress :=
  match progress.arguments with
  | [] => (none, progress)
  | first :: rest => (some first, { progress with arguments := rest })

def complain (progress : Progress) (message : String) : Progress :=
  { progress with complaints := progress.complaints ++ [message] }

end Progress

/-- Fill up to the width. -/
def pad (layout : Layout) (text : Text) : Text :=
  let missing := layout.width - text.length
  if missing = 0 then text
  else if layout.left then text ++ List.replicate missing ' '
  else List.replicate missing ' ' ++ text

/-- Lay out the digits of a number behind its sign. -/
def padNumber (layout : Layout) (sign digits : Text) : Text :=
  let digits := List.replicate (layout.precision.getD 0 - digits.length) '0' ++ digits
  let missing := layout.width - (sign.length + digits.length)
  if layout.zeros && !layout.left && layout.precision.isNone then
    sign ++ List.replicate missing '0' ++ digits
  else pad layout (sign ++ digits)

/-- The number of an argument, with a complaint when the argument is none. -/
def numberOf (argument : Option Text) : Int × Option String :=
  match argument with
  | none => (0, none)
  | some ('\'' :: c :: _) => (c.toNat, none)
  | some ('"' :: c :: _) => (c.toNat, none)
  | some [] => (0, none)
  | some text =>
      match Arithmetic.leadingNumber? text with
      | none => (0, some (String.ofList text ++ ": expected numeric value"))
      | some (value, []) => (value, none)
      | some (value, _) => (value, some (String.ofList text ++ ": not completely converted"))

/-- Take a number. -/
def takeNumber (progress : Progress) : Int × Progress :=
  let (argument, progress) := progress.take
  let (value, complaint) := numberOf argument
  (value, complaint.elim progress progress.complain)

/-- The sign in front of a number. -/
def signOf (layout : Layout) (value : Int) : Text :=
  if value < 0 then ['-'] else if layout.plus then ['+'] else if layout.blank then [' '] else []

/-- Write one conversion; nothing when the letter is not one. -/
def convert? (layout : Layout) (letter : Char) (progress : Progress) : Option Progress :=
  let unsigned (base : Nat) (upper : Bool) (front : Text) : Progress :=
    let (value, progress) := takeNumber progress
    let magnitude := (value % Arithmetic.modulus).toNat
    let front := if layout.alternate && magnitude ≠ 0 then front else []
    progress.write (padNumber layout front (Text.inBase base upper magnitude))
  match letter with
  | 's' =>
      let (argument, progress) := progress.take
      let text := argument.getD []
      some (progress.write (pad layout (layout.precision.elim text text.take)))
  | 'b' =>
      let (argument, progress) := progress.take
      let (text, stops) := unescape (argument.getD [])
      let progress := progress.write (pad layout (layout.precision.elim text text.take))
      some { progress with stopped := stops }
  | 'c' =>
      let (argument, progress) := progress.take
      some (progress.write (pad layout ((argument.getD []).take 1)))
  | 'd' =>
      let (value, progress) := takeNumber progress
      some (progress.write (padNumber layout (signOf layout value) (Text.ofNat value.natAbs)))
  | 'i' =>
      let (value, progress) := takeNumber progress
      some (progress.write (padNumber layout (signOf layout value) (Text.ofNat value.natAbs)))
  | 'u' => some (unsigned 10 false [])
  | 'o' => some (unsigned 8 false ['0'])
  | 'x' => some (unsigned 16 false ['0', 'x'])
  | 'X' => some (unsigned 16 true ['0', 'X'])
  | _ => none

/-- Read the flags of a conversion. -/
def flags (layout : Layout) : Text → Layout × Text
  | '-' :: rest => flags { layout with left := true } rest
  | '0' :: rest => flags { layout with zeros := true } rest
  | '+' :: rest => flags { layout with plus := true } rest
  | ' ' :: rest => flags { layout with blank := true } rest
  | '#' :: rest => flags { layout with alternate := true } rest
  | text => (layout, text)

/-- A width or a precision: digits, or the next argument. -/
def measure (text : Text) (progress : Progress) : Int × Text × Progress :=
  match text with
  | '*' :: rest =>
      let (value, progress) := takeNumber progress
      (value, rest, progress)
  | _ =>
      let digits := text.takeWhile Char.isDigit
      (Text.decimal digits, text.drop digits.length, progress)

/-- Read the layout of a conversion. -/
def layout (text : Text) (progress : Progress) : Layout × Text × Progress :=
  let (found, text) := flags ⟨false, false, false, false, false, 0, none⟩ text
  let (width, text, progress) := measure text progress
  let found := { found with width := width.natAbs, left := found.left || decide (width < 0) }
  match text with
  | '.' :: rest =>
      let (precision, rest, progress) := measure rest progress
      ({ found with precision := if precision < 0 then none else some precision.toNat }, rest, progress)
  | _ => (found, text, progress)

/-- Use the format once. -/
def once : Nat → Text → Progress → Except String Progress
  | 0, _, progress => .ok progress
  | _ + 1, [], progress => .ok progress
  | limit + 1, c :: rest, progress =>
      match c, rest with
      | '\\', _ =>
          match inFormat rest with
          | .char byte left => once limit left (progress.write [byte])
          | _ => once limit rest (progress.write ['\\'])
      | '%', '%' :: left => once limit left (progress.write ['%'])
      | '%', _ =>
          let (found, left, progress) := layout rest progress
          match left with
          | [] => .error "missing format character"
          | letter :: after =>
              match convert? found letter progress with
              | none =>
                  let directive := c :: rest.take (rest.length - after.length)
                  .error (String.ofList directive ++ ": invalid directive")
              | some progress =>
                  if progress.stopped then .ok progress else once limit after progress
      | _, _ => once limit rest (progress.write [c])

/-- Use the format until no arguments are left, at most `limit` times. -/
def passes (format : Text) : Nat → Progress → Except String Progress
  | 0, progress => .ok progress
  | limit + 1, progress => do
      let later ← once format.length format progress
      if later.stopped || later.arguments.isEmpty ||
          later.arguments.length = progress.arguments.length then return later
      else passes format limit later

/-- What is written for a format with arguments. -/
def run (format : Text) (arguments : List Text) : Except String (Text × List String) :=
  (passes format (arguments.length + 1) ⟨[], arguments, [], false⟩).map fun progress =>
    (progress.pieces.reverse.flatten, progress.complaints)

/-- The arguments with blanks between them and a newline, escapes resolved. -/
def echo (arguments : List Text) : Text :=
  let newline := arguments.head? != some ['-', 'n']
  let words := if newline then arguments else arguments.drop 1
  let (text, stops) := unescape (Text.joinWith [' '] words)
  if stops || !newline then text else text ++ ['\n']

end Format

end LineShell.Script
