/-
# LineShell.Line -- from tokens to a line

The redirections belong to the whole line: `<` feeds the first command and `>`
takes what the last one writes, wherever they are written.  The tokens are read
once from left to right into a `Line.Draft`, which refuses a second redirection
of one direction and a second pipe; only then is every stage asked for a name.
-/
import LineShell.Token

namespace LineShell

set_option autoImplicit false

namespace Line

/-- What has been read of a line: the words of its stages and its redirections. -/
structure Draft where
  first : List String
  second : Option (List String)
  redirects : Redirects

namespace Draft

/-- Nothing has been read. -/
def empty : Draft :=
  ⟨[], none, .none⟩

/-- Read one more token. -/
def add (draft : Draft) : Token → Except ParseError Draft
  | .word text =>
      match draft.second with
      | none => .ok { draft with first := draft.first ++ [text] }
      | some stage => .ok { draft with second := some (stage ++ [text]) }
  | .redirect direction target =>
      if (draft.redirects.target direction).isSome then .error (.duplicateRedirect direction)
      else .ok { draft with redirects := draft.redirects.assign direction (some (.ofText target)) }
  | .pipe =>
      match draft.second with
      | none => .ok { draft with second := some [] }
      | some _ => .error .tooManyStages

/-- The line that has been read, once there are no more tokens. -/
def finish (draft : Draft) : Except ParseError Line :=
  match Command.ofTokens? draft.first, draft.second with
  | none, _ => .error .missingCommand
  | some command, none => .ok (.simple { command with redirects := draft.redirects })
  | some left, some stage =>
      match Command.ofTokens? stage with
      | none => .error .missingCommand
      | some right =>
          .ok (.pipe { left with redirects := { left.redirects with stdin := draft.redirects.stdin } }
            { right with redirects := { right.redirects with stdout := draft.redirects.stdout } })

end Draft

/-- The line that these tokens make. -/
def ofTokens (tokens : List Token) : Except ParseError Line :=
  if tokens.isEmpty then .error .empty
  else do (← tokens.foldlM Draft.add Draft.empty).finish

/-- Read a line.  A marker for the background has to be cut off before. -/
def parse (line : String) : Except ParseError Line := do
  ofTokens (← Token.ofLine line)

/-- What a line means depends on its words only. -/
theorem parse_congr {line other : String} (same : words line = words other) :
    parse line = parse other := by
  simp [parse, Token.ofLine, same]

end Line

end LineShell
