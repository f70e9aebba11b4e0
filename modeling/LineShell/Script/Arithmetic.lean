/-
# LineShell.Script.Arithmetic -- whole-number expressions

Expressions are read into a tree and then evaluated, so that an operand that is
not needed has no effect.  Values are numbers of 64 bits that wrap around.
-/
import LineShell.Script.Bindings

namespace LineShell.Script

set_option autoImplicit false

/-- An operator between two numbers. -/
inductive NumberOperator where
  | times | over | remainder | plus | minus | shiftLeft | shiftRight
  | less | lessEqual | greater | greaterEqual | equal | notEqual
  | bitAnd | bitXor | bitOr
  deriving DecidableEq, Repr

/-- An operator between two operands of an expression. -/
inductive InfixOperator where
  | number (operator : NumberOperator)
  | both
  | either
  deriving DecidableEq, Repr

/-- An operator in front of an operand. -/
inductive Sign where
  | plus | minus | complement | not
  deriving DecidableEq, Repr

/-- An expression. -/
inductive Expression where
  | number (value : Int)
  | name (name : Text)
  | signed (sign : Sign) (operand : Expression)
  | join (operator : InfixOperator) (left right : Expression)
  | choose (condition yes no : Expression)
  | assign (name : Text) (operator : Option NumberOperator) (value : Expression)
  deriving DecidableEq

namespace Arithmetic

/-- The operators with their strength, a longer spelling before the spellings it starts with. -/
def operators : List (String × Nat × InfixOperator) :=
  [("||", 1, .either), ("&&", 2, .both), ("==", 6, .number .equal), ("!=", 6, .number .notEqual),
   ("<<", 8, .number .shiftLeft), (">>", 8, .number .shiftRight), ("<=", 7, .number .lessEqual),
   (">=", 7, .number .greaterEqual), ("<", 7, .number .less), (">", 7, .number .greater),
   ("|", 3, .number .bitOr), ("^", 4, .number .bitXor), ("&", 5, .number .bitAnd),
   ("+", 9, .number .plus), ("-", 9, .number .minus), ("*", 10, .number .times),
   ("/", 10, .number .over), ("%", 10, .number .remainder)]

def skipSpace (text : Text) : Text :=
  text.dropWhile Text.isSpace

/-- Take a spelling, if it is next. -/
def accept? (spelling : String) (text : Text) : Option Text :=
  Text.stripStart? (Text.ofString spelling) (skipSpace text)

/-- The operator that is next. -/
def operator? (text : Text) : Option (Nat × InfixOperator × Text) :=
  operators.findSome? fun (spelling, strength, operator) =>
    (accept? spelling text).map fun rest => (strength, operator, rest)

/-- The operator of an assignment that is next. -/
def assignment? (text : Text) : Option (Option NumberOperator × Text) :=
  match skipSpace text with
  | '=' :: '=' :: _ => none
  | '=' :: rest => some (none, rest)
  | _ =>
      match operator? text with
      | some (strength, .number operator, '=' :: rest) =>
          if strength = 6 || strength = 7 then none else some (some operator, rest)
      | _ => none

/-- The number at the start of a text: hexadecimal after `0x`, octal after `0`. -/
def number (text : Text) : Nat × Text :=
  match text with
  | '0' :: 'x' :: rest => Text.readDigits 16 0 rest
  | '0' :: 'X' :: rest => Text.readDigits 16 0 rest
  | '0' :: rest => Text.readDigits 8 0 rest
  | _ => Text.readDigits 10 0 text

mutual

/-- An operand. -/
def operand : Nat → Text → Except String (Expression × Text)
  | 0, _ => .error "expecting primary"
  | limit + 1, text =>
      let signed (sign : Sign) (rest : Text) : Except String (Expression × Text) := do
        let (value, left) ← operand limit rest
        return (.signed sign value, left)
      match skipSpace text with
      | [] => .error "expecting primary"
      | '(' :: rest => do
          let (value, left) ← expression limit rest
          match accept? ")" left with
          | some left => return (value, left)
          | none => throw "expecting ')'"
      | '+' :: rest => signed .plus rest
      | '-' :: rest => signed .minus rest
      | '~' :: rest => signed .complement rest
      | '!' :: rest => signed .not rest
      | c :: rest =>
          if c.isDigit then
            let (value, left) := number (c :: rest)
            .ok (.number value, left)
          else if Text.isNameStart c then
            let name := (c :: rest).takeWhile Text.isNameChar
            let left := (c :: rest).dropWhile Text.isNameChar
            match assignment? left with
            | some (operator, left) => do
                let (value, left) ← expression limit left
                return (.assign name operator value, left)
            | none => .ok (.name name, left)
          else .error "expecting primary"

/-- Operands joined by operators of at least this strength. -/
def joined : Nat → Nat → Expression → Text → Except String (Expression × Text)
  | 0, _, left, text => .ok (left, text)
  | limit + 1, least, left, text =>
      match operator? text with
      | none => .ok (left, text)
      | some (strength, operator, rest) =>
          if strength < least then .ok (left, text)
          else do
            let (first, rest) ← operand limit rest
            let (right, rest) ← joined limit (strength + 1) first rest
            joined limit least (.join operator left right) rest

/-- A whole expression. -/
def expression : Nat → Text → Except String (Expression × Text)
  | 0, _ => .error "expecting primary"
  | limit + 1, text => do
      let (first, rest) ← operand limit text
      let (condition, rest) ← joined limit 1 first rest
      match accept? "?" rest with
      | none => return (condition, rest)
      | some rest =>
          let (yes, rest) ← expression limit rest
          match accept? ":" rest with
          | none => throw "expecting ':'"
          | some rest =>
              let (no, rest) ← expression limit rest
              return (.choose condition yes no, rest)

end

/-! ## Values -/

/-- How many numbers have 64 bits. -/
def modulus : Nat := 18446744073709551616

/-- A number as one of 64 bits. -/
def wrap (value : Int) : Int :=
  value.bmod modulus

def ofBool (value : Bool) : Int :=
  if value then 1 else 0

/-- Apply an operation of bits. -/
def bitwise (operation : BitVec 64 → BitVec 64 → BitVec 64) (left right : Int) : Int :=
  (operation (.ofInt 64 left) (.ofInt 64 right)).toInt

/-- Why an expression has no value. -/
inductive ExpressionError where
  | malformed (reason : String)
  | illegalNumber (text : Text)
  deriving DecidableEq

/-- What is said about an expression without a value. -/
def ExpressionError.message (source : Text) : ExpressionError → String
  | .malformed reason =>
      "arithmetic expression: " ++ reason ++ ": \"" ++ String.ofList source ++ "\""
  | .illegalNumber text => "Illegal number: " ++ String.ofList text

def apply (operator : NumberOperator) (left right : Int) : Except ExpressionError Int :=
  match operator with
  | .times => .ok (wrap (left * right))
  | .over => if right = 0 then .error (.malformed "division by zero") else .ok (wrap (left.tdiv right))
  | .remainder => if right = 0 then .error (.malformed "division by zero") else .ok (wrap (left.tmod right))
  | .plus => .ok (wrap (left + right))
  | .minus => .ok (wrap (left - right))
  | .shiftLeft => .ok (bitwise (fun a b => a <<< (b &&& 63#64)) left right)
  | .shiftRight => .ok (bitwise (fun a b => a.sshiftRight' (b &&& 63#64)) left right)
  | .less => .ok (ofBool (left < right))
  | .lessEqual => .ok (ofBool (left ≤ right))
  | .greater => .ok (ofBool (right < left))
  | .greaterEqual => .ok (ofBool (right ≤ left))
  | .equal => .ok (ofBool (left = right))
  | .notEqual => .ok (ofBool (left ≠ right))
  | .bitAnd => .ok (bitwise (· &&& ·) left right)
  | .bitXor => .ok (bitwise (· ^^^ ·) left right)
  | .bitOr => .ok (bitwise (· ||| ·) left right)

/-- The number at the start of a text, which may have a sign, and what follows it.  There is none when
no digit comes first. -/
def leadingNumber? (text : Text) : Option (Int × Text) :=
  let trimmed := skipSpace text
  let magnitude := if trimmed.head? = some '-' || trimmed.head? = some '+' then trimmed.drop 1 else trimmed
  if (magnitude.head?.map Char.isDigit).getD false then
    let (value, rest) := number magnitude
    some (if trimmed.head? = some '-' then -(value : Int) else value, rest)
  else none

/-- The number that is the whole text, blanks aside. -/
def wholeNumber? (text : Text) : Option Int :=
  match leadingNumber? text with
  | some (value, rest) => if (skipSpace rest).isEmpty then some value else none
  | none => none

/-- The number that a variable holds; no value counts as zero. -/
def valueOf (bindings : Bindings) (name : Text) : Except ExpressionError Int :=
  match bindings.value? name with
  | none => .ok 0
  | some text =>
      if (skipSpace text).isEmpty then .ok 0
      else
        match wholeNumber? text with
        | some value => .ok (wrap value)
        | none => .error (.illegalNumber text)

/-- Evaluate an expression; assignments change the variables. -/
def evaluate (bindings : Bindings) : Expression → Except ExpressionError (Int × Bindings)
  | .number value => .ok (wrap value, bindings)
  | .name name => do
      let value ← valueOf bindings name
      return (value, bindings)
  | .signed sign operand => do
      let (value, bindings) ← evaluate bindings operand
      let result :=
        match sign with
        | .plus => value
        | .minus => wrap (-value)
        | .complement => wrap (-value - 1)
        | .not => ofBool (value = 0)
      return (result, bindings)
  | .join operator left right => do
      let (first, bindings) ← evaluate bindings left
      match operator with
      | .both =>
          if first = 0 then return (0, bindings)
          else
            let (second, bindings) ← evaluate bindings right
            return (ofBool (second ≠ 0), bindings)
      | .either =>
          if first ≠ 0 then return (1, bindings)
          else
            let (second, bindings) ← evaluate bindings right
            return (ofBool (second ≠ 0), bindings)
      | .number operator =>
          let (second, bindings) ← evaluate bindings right
          return (← apply operator first second, bindings)
  | .choose condition yes no => do
      let (value, bindings) ← evaluate bindings condition
      if value ≠ 0 then evaluate bindings yes else evaluate bindings no
  | .assign name operator value => do
      let (operand, bindings) ← evaluate bindings value
      let result ←
        match operator with
        | none => pure operand
        | some operator => apply operator (← valueOf bindings name) operand
      return (result, bindings.assign name (Text.ofInt result))

/-- The value of an expression; a blank one is zero. -/
def run (bindings : Bindings) (text : Text) : Except ExpressionError (Int × Bindings) :=
  if (skipSpace text).isEmpty then .ok (0, bindings)
  else
    match expression (2 * text.length + 2) text with
    | .error reason => .error (.malformed reason)
    | .ok (tree, rest) =>
        if (skipSpace rest).isEmpty then evaluate bindings tree
        else .error (.malformed "expecting EOF")

end Arithmetic

end LineShell.Script
