/-
# LineShell.Script.Condition -- the conditions of `test`

The number of the arguments decides how they are read: one is a text, two an
operator with its operand, three an operator between two operands.  Longer
conditions are cut at `-o` and then at `-a`.
-/
import LineShell.Script.Text

namespace LineShell.Script

set_option autoImplicit false

/-- What is asked about a file. -/
inductive FileQuestion where
  | present
  | regular
  | directory
  | link
  | fifo
  | characterDevice
  | nonEmpty
  | readable
  | writable
  | executable
  deriving DecidableEq, Repr

/-- How two numbers compare. -/
inductive Comparison where
  | equal | notEqual | less | lessEqual | greater | greaterEqual
  deriving DecidableEq, Repr

namespace Comparison

def holds (comparison : Comparison) (left right : Int) : Bool :=
  match comparison with
  | .equal => left = right
  | .notEqual => left ≠ right
  | .less => left < right
  | .lessEqual => left ≤ right
  | .greater => right < left
  | .greaterEqual => right ≤ left

end Comparison

/-- A condition. -/
inductive Condition where
  | constant (value : Bool)
  | file (question : FileQuestion) (path : Text)
  | sameFile (left right : Text)
  | not (condition : Condition)
  | both (left right : Condition)
  | either (left right : Condition)
  deriving DecidableEq

namespace Condition

/-- The question that an operator asks about a file. -/
def question? : Text → Option FileQuestion
  | ['-', 'e'] => some .present
  | ['-', 'f'] => some .regular
  | ['-', 'd'] => some .directory
  | ['-', 'h'] => some .link
  | ['-', 'L'] => some .link
  | ['-', 'p'] => some .fifo
  | ['-', 'c'] => some .characterDevice
  | ['-', 's'] => some .nonEmpty
  | ['-', 'r'] => some .readable
  | ['-', 'w'] => some .writable
  | ['-', 'x'] => some .executable
  | _ => none

/-- The comparison that an operator stands for. -/
def comparison? : Text → Option Comparison
  | ['-', 'e', 'q'] => some .equal
  | ['-', 'n', 'e'] => some .notEqual
  | ['-', 'l', 't'] => some .less
  | ['-', 'l', 'e'] => some .lessEqual
  | ['-', 'g', 't'] => some .greater
  | ['-', 'g', 'e'] => some .greaterEqual
  | _ => none

/-- The number that an operand is. -/
def numberOf (text : Text) : Except String Int :=
  match Text.wholeDecimal? text with
  | some value => .ok value
  | none => .error ("Illegal number: " ++ String.ofList text)

/-- An operator with its operand. -/
def unary? (operator operand : Text) : Option Condition :=
  match operator with
  | ['-', 'n'] => some (.constant (!operand.isEmpty))
  | ['-', 'z'] => some (.constant operand.isEmpty)
  | ['-', 't'] => some (.constant false)
  | _ => (question? operator).map fun question => .file question operand

/-- An operator between operands. -/
def binary? (left operator right : Text) : Option (Except String Condition) :=
  match operator with
  | ['='] => some (.ok (.constant (left = right)))
  | ['=', '='] => some (.ok (.constant (left = right)))
  | ['!', '='] => some (.ok (.constant (left ≠ right)))
  | ['<'] => some (.ok (.constant (left < right)))
  | ['>'] => some (.ok (.constant (right < left)))
  | ['-', 'e', 'f'] => some (.ok (.sameFile left right))
  | _ =>
      (comparison? operator).map fun comparison => do
        let first ← numberOf left
        let second ← numberOf right
        return .constant (comparison.holds first second)

/-- Cut before and after the first occurrence of an operator. -/
def cutAt? (operator : Text) : List Text → Option (List Text × List Text)
  | [] => none
  | first :: rest =>
      if first = operator then some ([], rest)
      else (cutAt? operator rest).map fun (before, after) => (first :: before, after)

def unexpected (text : Text) : Except String Condition :=
  .error (String.ofList text ++ ": unexpected operator")

/-- Read a condition. -/
def read : Nat → List Text → Except String Condition
  | 0, _ => .ok (.constant false)
  | _ + 1, [] => .ok (.constant false)
  | _ + 1, [text] => .ok (.constant (!text.isEmpty))
  | limit + 1, [first, second] =>
      if first = ['!'] then (read limit [second]).map .not
      else
        match unary? first second with
        | some condition => .ok condition
        | none => unexpected first
  | limit + 1, [first, second, third] =>
      match binary? first second third with
      | some condition => condition
      | none =>
          if first = ['!'] then (read limit [second, third]).map .not
          else if first = ['('] && third = [')'] then read limit [second]
          else if second = ['-', 'a'] then
            .ok (.both (.constant (!first.isEmpty)) (.constant (!third.isEmpty)))
          else if second = ['-', 'o'] then
            .ok (.either (.constant (!first.isEmpty)) (.constant (!third.isEmpty)))
          else unexpected first
  | limit + 1, first :: rest =>
      if rest.length = 3 && first = ['!'] then (read limit rest).map .not
      else
        match cutAt? ['-', 'o'] (first :: rest) with
        | some (before, after) => do return .either (← read limit before) (← read limit after)
        | none =>
            match cutAt? ['-', 'a'] (first :: rest) with
            | some (before, after) => do return .both (← read limit before) (← read limit after)
            | none =>
                if first = ['!'] then (read limit rest).map .not
                else if first = ['('] && rest.getLast? = some [')'] then read limit rest.dropLast
                else unexpected first

/-- Read the arguments of `test`. -/
def ofArguments (arguments : List Text) : Except String Condition :=
  read (2 * arguments.length + 1) arguments

end Condition

end LineShell.Script
