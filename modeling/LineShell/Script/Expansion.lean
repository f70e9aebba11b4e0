/-
# LineShell.Script.Expansion -- from words to texts

Expanding a word gives a list of marks: characters with where they came from, and
places where a word ends in any case.  The marks are cut into fields where an
unquoted value has a character of `IFS`; a value in quotes and everything that
was written plainly is never cut.
-/
import LineShell.Script.Arithmetic
import LineShell.Script.Pattern
import LineShell.Script.Run

namespace LineShell.Script

set_option autoImplicit false

/-- Where a character of an expanded word came from. -/
inductive Origin where
  | written
  | quoted
  | value
  deriving DecidableEq, Repr

/-- A piece of an expanded word. -/
inductive Mark where
  | glyph (char : Char) (origin : Origin)
  /-- Quotes stood here, so there is a field even if it is empty. -/
  | present
  /-- A field ends here. -/
  | boundary
  deriving DecidableEq

namespace Expansion

/-- The characters between which unquoted values are cut. -/
def separators : Run Text := do
  return (← Run.lookup? (Text.ofString "IFS")).getD [' ', '\t', '\n']

def glyphs (text : Text) (origin : Origin) : List Mark :=
  text.map fun c => .glyph c origin

/-- A value as marks. -/
def valueMarks (quoted : Bool) (text : Text) : List Mark :=
  glyphs text (if quoted then .quoted else .value)

/-- Several values, each a field of its own. -/
def separate (quoted : Bool) : List Text → List Mark
  | [] => []
  | [last] => (if quoted then [.present] else []) ++ valueMarks quoted last
  | first :: rest =>
      (if quoted then [.present] else []) ++ valueMarks quoted first ++ .boundary :: separate quoted rest

/-- The value of a parameter. -/
def value? (parameter : Parameter) : Run (Option Text) := do
  let state ← get
  match parameter with
  | .variable name => Run.lookup? name
  | .position 0 => return some state.name
  | .position (number + 1) => return state.positions[number]?
  | .all => return if state.positions.isEmpty then none else some (Text.joinWith [' '] state.positions)
  | .joined =>
      let between := (← separators).take 1
      return if state.positions.isEmpty then none else some (Text.joinWith between state.positions)
  | .count => return some (Text.ofNat state.positions.length)
  | .status => return some (Text.ofNat state.status)
  | .shellPid => return some (Text.ofNat state.shellPid.number)
  | .backgroundPid => return state.backgroundPid.map fun pid => Text.ofNat pid.number
  | .flags => return some []

/-- A parameter as marks. -/
def parameterMarks (parameter : Parameter) (quoted : Bool) : Run (List Mark) := do
  let state ← get
  match parameter, quoted with
  | .all, _ => return separate quoted state.positions
  | .joined, false => return separate false state.positions
  | _, _ => return valueMarks quoted ((← value? parameter).getD [])

/-- How a parameter is called in a message. -/
def nameOf : Parameter → Text
  | .variable name => name
  | .position number => Text.ofNat number
  | .all => ['@']
  | .joined => ['*']
  | .count => ['#']
  | .status => ['?']
  | .shellPid => ['$']
  | .backgroundPid => ['!']
  | .flags => ['-']

/-- The text of marks. -/
def plainText (marks : List Mark) : Text :=
  marks.filterMap fun mark =>
    match mark with
    | .glyph c _ => some c
    | .present => none
    | .boundary => some ' '

/-- The characters of marks, for a pattern. -/
def patternOf (marks : List Mark) : Pattern :=
  Pattern.ofGlyphs <| marks.filterMap fun mark =>
    match mark with
    | .glyph c origin => some ⟨c, origin = .quoted⟩
    | .present => none
    | .boundary => some ⟨' ', true⟩

/-- What was written in place of a value is cut like a value. -/
def asValue (marks : List Mark) : List Mark :=
  marks.map fun mark =>
    match mark with
    | .glyph c .written => .glyph c .value
    | other => other

/-- The output of a child that runs a text, without the newlines at its end. -/
def outputOf (script : Text) : Run Text := do
  match ← Run.ask .pipe with
  | .error errno => Run.fail none (Text.ofString ("Pipe call failed: " ++ errno.systemText))
  | .ok (reading, writing) =>
      match ← Run.ask (.fork ⟨← get, .script script, [⟨reading, writing, 1⟩]⟩) with
      | .error _ => Run.fail none (Text.ofString "Cannot fork")
      | .ok pid =>
          let _ ← Run.ask (.entry (.close writing))
          let bytes := (← Run.readAll reading).toOption.getD []
          let _ ← Run.ask (.entry (.close reading))
          Run.setStatus (← Run.await pid)
          let text := Text.ofBytes (bytes.filter (· ≠ 0))
          return (text.reverse.dropWhile (· = '\n')).reverse

/-- Cut a value by a pattern. -/
def trimmed (kind : Trim) (pattern : Pattern) (text : Text) : Text :=
  match kind with
  | .shortestStart => pattern.trimStart false text
  | .longestStart => pattern.trimStart true text
  | .shortestEnd => pattern.trimEnd false text
  | .longestEnd => pattern.trimEnd true text

mutual

/-- The marks of a part. -/
def part : Nat → Part → Run (List Mark)
  | 0, _ => return []
  | limit + 1, found =>
      match found with
      | .literal [] true => return [.present]
      | .literal text quoted => return glyphs text (if quoted then .quoted else .written)
      | .value parameter quoted => parameterMarks parameter quoted
      | .length parameter quoted => do
          return valueMarks quoted (Text.ofNat ((← value? parameter).getD []).length)
      | .fallback parameter kind emptyIsUnset word quoted => do
          let value ← value? parameter
          let unset := value.isNone || (emptyIsUnset && value = some [])
          match kind with
          | .useDefault =>
              if unset then return asValue (← parts limit word) else parameterMarks parameter quoted
          | .alternative => if unset then return [] else return asValue (← parts limit word)
          | .assignDefault =>
              if unset then
                match parameter with
                | .variable name =>
                    let text := plainText (← parts limit word)
                    Run.assign name text
                    return valueMarks quoted text
                | _ => Run.fail none (nameOf parameter ++ Text.ofString ": bad variable name")
              else parameterMarks parameter quoted
          | .complain =>
              if unset then
                let message := plainText (← parts limit word)
                let message :=
                  if !message.isEmpty then message
                  else if emptyIsUnset then Text.ofString "parameter not set or null"
                  else Text.ofString "parameter not set"
                Run.fail none (nameOf parameter ++ Text.ofString ": " ++ message)
              else parameterMarks parameter quoted
      | .trim parameter kind pattern quoted => do
          let pattern := patternOf (← parts limit pattern)
          return valueMarks quoted (trimmed kind pattern ((← value? parameter).getD []))
      | .arithmetic expression quoted => do
          let text := plainText (← parts limit expression)
          match Arithmetic.run (← get).bindings text with
          | .error error => Run.fail none (Text.ofString (error.message text))
          | .ok (value, bindings) =>
              modify fun state => { state with bindings := bindings }
              return valueMarks quoted (Text.ofInt value)
      | .output script quoted => return valueMarks quoted (← outputOf script)
      | .meaningless => Run.fail none (Text.ofString "Bad substitution")

/-- The marks of a word. -/
def parts : Nat → Word → Run (List Mark)
  | 0, _ => return []
  | _ + 1, [] => return []
  | limit + 1, first :: rest => do
      let front ← part limit first
      return front ++ (← parts limit rest)

end

/-- The marks of a word. -/
def marks (word : Word) : Run (List Mark) :=
  parts Script.patience word

/-! ## Fields -/

/-- The fields that are complete, the last first, and the one that is being read, backwards. -/
structure Cutting where
  fields : List Text
  current : Option Text
  /-- The field before ended with white space, which a separator may still follow. -/
  afterSpace : Bool

namespace Cutting

def finish (cutting : Cutting) : Cutting :=
  match cutting.current with
  | some text => ⟨text.reverse :: cutting.fields, none, cutting.afterSpace⟩
  | none => cutting

/-- Take one mark. -/
def take (separators : Text) (cutting : Cutting) : Mark → Cutting
  | .present => { cutting with current := some (cutting.current.getD []), afterSpace := false }
  | .boundary => { cutting.finish with afterSpace := false }
  | .glyph c origin =>
      if origin = .value && separators.contains c then
        if c = ' ' || c = '\t' || c = '\n' then
          match cutting.current with
          | some _ => { cutting.finish with afterSpace := true }
          | none => cutting
        else
          match cutting.current with
          | some _ => { cutting.finish with afterSpace := false }
          | none =>
              if cutting.afterSpace then { cutting with afterSpace := false }
              else { cutting with fields := [] :: cutting.fields }
      else { cutting with current := some (c :: cutting.current.getD []), afterSpace := false }

end Cutting

/-- Cut marks into fields. -/
def cut (separators : Text) (marks : List Mark) : List Text :=
  (marks.foldl (Cutting.take separators) ⟨[], none, false⟩).finish.fields.reverse

/-- The fields of a word. -/
def fields (word : Word) : Run (List Text) := do
  let marks ← marks word
  return cut (← separators) marks

/-- The fields of several words. -/
def allFields : List Word → Run (List Text)
  | [] => return []
  | first :: rest => do
      let front ← fields first
      return front ++ (← allFields rest)

/-- The text of a word that is not cut. -/
def text (word : Word) : Run Text := do
  return plainText (← marks word)

/-- The pattern that a word stands for. -/
def pattern (word : Word) : Run Pattern := do
  return patternOf (← marks word)

end Expansion

end LineShell.Script
