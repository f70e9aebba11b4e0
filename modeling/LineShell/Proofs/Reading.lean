/-
# LineShell.Proofs.Reading -- what has been read of a line

The words of a line are first classified and then read one token after another.
Both passes are described here once for every line.

* `Token.ofWords_eq_ok_iff`: the tokens of a list of words are those that spell it
  and hold no operator in the place of a word or a file name (`Token.Readable`).
* `Line.Draft.Holds`: a draft holds exactly the tokens that were read, the words and
  bars in order and the files in any order.  It is kept by every token that is
  accepted, and a token is refused exactly when its operator was read before.
* `Line.Draft.finish_eq_ok_iff`: what a line is made of determines the draft that it
  was finished from.
-/
import LineShell.Line
import LineShell.Proofs.Except
import Mathlib.Data.List.Perm.Basic

namespace LineShell

set_option autoImplicit false

/-- A word that is no operator. -/
def Ordinary (word : String) : Prop :=
  word ≠ "<" ∧ word ≠ ">" ∧ word ≠ "|"

namespace Operator

@[simp] theorem ofWord?_spelling (operator : Operator) :
    ofWord? operator.spelling = some operator := by
  cases operator with
  | redirect direction => cases direction <;> rfl
  | pipe => rfl

theorem ofWord?_eq_none_iff {word : String} : ofWord? word = none ↔ Ordinary word := by
  unfold ofWord? Ordinary
  split
  · next is => simp [is]
  · next notInput =>
      split
      · next is => simp [is]
      · next notOutput => split <;> simp_all

/-- What goes wrong when an operator is there for the second time. -/
def repetition : Operator → ParseError
  | .redirect direction => .duplicateRedirect direction
  | .pipe => .tooManyStages

end Operator

/-! ## Tokens -/

namespace Token

/-- The operator of a token, if it has one. -/
def operator? : Token → Option Operator
  | .word _ => none
  | .redirect direction _ => some (.redirect direction)
  | .pipe => some .pipe

/-- The file that a token redirects to, if it does. -/
def file? : Token → Option (Direction × Path)
  | .word _ => none
  | .redirect direction target => some (direction, .ofText target)
  | .pipe => none

/-- The token stays when the redirections are taken out. -/
def isPlain : Token → Bool
  | .word _ => true
  | .redirect _ _ => false
  | .pipe => true

/-- No word and no file name is an operator. -/
def Readable : Token → Prop
  | .word text => Operator.ofWord? text = none
  | .redirect _ target => Operator.ofWord? target = none
  | .pipe => True

variable {token : Token} {tokens : List Token} {ws : List String}

/-- Classifying finds the tokens again that the words were spelled by. -/
theorem ofWords_spelling (readable : ∀ token ∈ tokens, token.Readable) :
    ofWords (tokens.flatMap spelling) = .ok tokens := by
  induction tokens with
  | nil => rfl
  | cons first rest ih =>
      obtain ⟨here, later⟩ := List.forall_mem_cons.1 readable
      have ih := ih later
      cases first with
      | word text =>
          have plain : Operator.ofWord? text = none := here
          simp [spelling, ofWords, plain, ih, Except.map]
      | redirect direction target =>
          have plain : Operator.ofWord? target = none := here
          have arrow : Operator.ofWord? direction.operator = some (.redirect direction) :=
            Operator.ofWord?_spelling (.redirect direction)
          simp [spelling, ofWords, arrow, plain, ih, Except.map]
      | pipe =>
          have bar : Operator.ofWord? "|" = some .pipe := rfl
          simp [spelling, ofWords, bar, ih, Except.map]

theorem readable_of_ofWords (read : ofWords ws = .ok tokens) : ∀ token ∈ tokens, token.Readable := by
  fun_induction ofWords ws generalizing tokens with
  | case1 => cases read; simp
  | case2 first rest plain ih =>
      obtain ⟨later, inner, rfl⟩ := map_eq_ok_iff.1 read
      exact List.forall_mem_cons.2 ⟨plain, ih inner⟩
  | case3 first rest bar ih =>
      obtain ⟨later, inner, rfl⟩ := map_eq_ok_iff.1 read
      exact List.forall_mem_cons.2 ⟨trivial, ih inner⟩
  | case4 first direction bare => simp at read
  | case5 first direction arrow target later _ => simp at read
  | case6 first direction arrow target later plain ih =>
      obtain ⟨rest, inner, rfl⟩ := map_eq_ok_iff.1 read
      exact List.forall_mem_cons.2 ⟨by simpa [Readable] using plain, ih inner⟩

theorem ofWords_eq_ok_iff :
    ofWords ws = .ok tokens ↔ tokens.flatMap spelling = ws ∧ ∀ token ∈ tokens, token.Readable := by
  constructor
  · exact fun read => ⟨spelling_ofWords read, readable_of_ofWords read⟩
  · rintro ⟨rfl, readable⟩
    exact ofWords_spelling readable

end Token

/-! ## Drafts -/

/-- The files of both streams, with their directions. -/
def Redirects.files (redirects : Redirects) : List (Direction × Path) :=
  (redirects.stdin.map fun file => (Direction.input, file)).toList ++
    (redirects.stdout.map fun file => (Direction.output, file)).toList

theorem Redirects.mem_files {redirects : Redirects} {direction : Direction} {file : Path} :
    (direction, file) ∈ redirects.files ↔ redirects.target direction = some file := by
  obtain ⟨stdin, stdout⟩ := redirects
  cases direction <;> cases stdin <;> cases stdout <;> simp [files, target, eq_comm]

theorem Redirects.files_nodup (redirects : Redirects) : (redirects.files.map Prod.fst).Nodup := by
  obtain ⟨stdin, stdout⟩ := redirects
  cases stdin <;> cases stdout <;> simp [files]

theorem Redirects.eq_of_files_perm {redirects other : Redirects}
    (perm : redirects.files.Perm other.files) : redirects = other := by
  have same : ∀ direction, redirects.target direction = other.target direction := by
    intro direction
    refine Option.ext fun file => ?_
    rw [← mem_files, ← mem_files]
    exact perm.mem_iff
  obtain ⟨stdin, stdout⟩ := redirects
  have input := same .input
  have output := same .output
  simp only [target] at input output
  rw [input, output]

/-- A file for a direction that had none joins the others. -/
theorem Redirects.files_assign {redirects : Redirects} {direction : Direction} (file : Path)
    (free : redirects.target direction = Option.none) :
    (redirects.assign direction (some file)).files.Perm (redirects.files ++ [(direction, file)]) := by
  obtain ⟨stdin, stdout⟩ := redirects
  cases direction with
  | input =>
      obtain rfl : stdin = .none := free
      cases stdout with
      | none => exact .refl _
      | some other => exact .swap _ _ _
  | output =>
      obtain rfl : stdout = .none := free
      cases stdin <;> exact .refl _

namespace Line

namespace Draft

/-- The words and bars of a draft, in order. -/
def skeleton (draft : Draft) : List Token :=
  draft.first.map .word ++
    match draft.second with
    | none => []
    | some stage => .pipe :: stage.map .word

/-- The draft is made of exactly these tokens. -/
structure Holds (draft : Draft) (read : List Token) : Prop where
  skeleton : draft.skeleton = read.filter Token.isPlain
  files : draft.redirects.files.Perm (read.filterMap Token.file?)

variable {draft next other : Draft} {token : Token} {read tokens : List Token}

theorem empty_holds : empty.Holds [] :=
  ⟨rfl, .refl _⟩

/-- The stages can be told from the words and bars. -/
theorem stages_of_skeleton {first otherFirst : List String} {second otherSecond : Option (List String)}
    {redirects otherRedirects : Redirects}
    (same : (Draft.mk first second redirects).skeleton =
      (Draft.mk otherFirst otherSecond otherRedirects).skeleton) :
    first = otherFirst ∧ second = otherSecond := by
  induction first generalizing otherFirst with
  | nil =>
      cases otherFirst with
      | nil =>
          have words : Function.Injective Token.word := fun _ _ same => Token.word.inj same
          cases second <;> cases otherSecond <;> simp_all [skeleton, List.map_inj_right]
      | cons head tail => cases second <;> simp [skeleton] at same
  | cons word rest ih =>
      cases otherFirst with
      | nil => cases otherSecond <;> simp [skeleton] at same
      | cons head tail =>
          have heads : word = head := by simpa [skeleton] using congrArg List.head? same
          have shorter : (Draft.mk rest second redirects).skeleton =
              (Draft.mk tail otherSecond otherRedirects).skeleton := by
            simpa [skeleton] using congrArg List.tail same
          have tails := ih shorter
          exact ⟨by rw [heads, tails.1], tails.2⟩

/-- A draft is determined by the tokens that it is made of. -/
theorem Holds.unique (holds : draft.Holds read) (also : other.Holds read) : draft = other := by
  have redirects := Redirects.eq_of_files_perm (holds.files.trans also.files.symm)
  obtain ⟨first, second, files⟩ := draft
  obtain ⟨otherFirst, otherSecond, otherFiles⟩ := other
  obtain ⟨rfl, rfl⟩ := stages_of_skeleton (holds.skeleton.trans also.skeleton.symm)
  obtain rfl : files = otherFiles := redirects
  rfl

/-! ## Reading one more token -/

/-- An operator was read before. -/
def Used (draft : Draft) : Operator → Prop
  | .redirect direction => (draft.redirects.target direction).isSome = true
  | .pipe => draft.second.isSome = true

theorem Holds.used_iff (holds : draft.Holds read) (operator : Operator) :
    operator ∈ read.filterMap Token.operator? ↔ draft.Used operator := by
  cases operator with
  | redirect direction =>
      have written : .redirect direction ∈ read.filterMap Token.operator? ↔
          ∃ file, (direction, file) ∈ read.filterMap Token.file? := by
        simp only [List.mem_filterMap]
        constructor
        · rintro ⟨token, mem, is⟩
          cases token with
          | redirect other target =>
              obtain rfl : other = direction := by simpa [Token.operator?] using is
              exact ⟨_, _, mem, rfl⟩
          | word text => simp [Token.operator?] at is
          | pipe => simp [Token.operator?] at is
        · rintro ⟨file, token, mem, is⟩
          cases token with
          | redirect other target =>
              obtain ⟨rfl, rfl⟩ : other = direction ∧ Path.ofText target = file := by
                simpa [Token.file?] using is
              exact ⟨_, mem, rfl⟩
          | word text => simp [Token.file?] at is
          | pipe => simp [Token.file?] at is
      rw [written, Used, Option.isSome_iff_exists]
      refine exists_congr fun file => ?_
      rw [← holds.files.mem_iff, Redirects.mem_files]
  | pipe =>
      have written : .pipe ∈ read.filterMap Token.operator? ↔
          Token.pipe ∈ read.filter Token.isPlain := by
        rw [List.mem_filterMap, List.mem_filter]
        constructor
        · rintro ⟨token, mem, is⟩
          cases token with
          | pipe => exact ⟨mem, rfl⟩
          | word text => simp [Token.operator?] at is
          | redirect direction target => simp [Token.operator?] at is
        · rintro ⟨mem, _⟩
          exact ⟨.pipe, mem, rfl⟩
      rw [written, ← holds.skeleton, Used]
      cases second : draft.second <;> simp [Draft.skeleton, second]

/-- A token that is accepted joins the others. -/
theorem Holds.add (holds : draft.Holds read) (accepted : draft.add token = .ok next) :
    next.Holds (read ++ [token]) := by
  obtain ⟨first, second, redirects⟩ := draft
  obtain ⟨skeleton, files⟩ := holds
  cases token with
  | word text =>
      have same : next.redirects = redirects ∧
          next.skeleton = (Draft.mk first second redirects).skeleton ++ [.word text] := by
        cases second <;> cases accepted <;> simp [Draft.skeleton]
      refine ⟨?_, ?_⟩
      · rw [same.2, skeleton, List.filter_append]
        rfl
      · have untouched : [Token.word text].filterMap Token.file? = [] := rfl
        rw [same.1, List.filterMap_append, untouched, List.append_nil]
        exact files
  | redirect direction target =>
      simp only [Draft.add] at accepted
      split at accepted
      · simp at accepted
      · next unused =>
          cases accepted
          refine ⟨?_, ?_⟩
          · rw [List.filter_append]
            simpa [Token.isPlain, Draft.skeleton] using skeleton
          · have joined := Redirects.files_assign (.ofText target)
              (Option.not_isSome_iff_eq_none.1 unused)
            rw [List.filterMap_append]
            exact joined.trans (files.append_right _)
  | pipe =>
      cases second with
      | some stage => simp [Draft.add] at accepted
      | none =>
          cases accepted
          have bar : [Token.pipe].filter Token.isPlain = [.pipe] := rfl
          have untouched : [Token.pipe].filterMap Token.file? = [] := rfl
          refine ⟨?_, ?_⟩
          · rw [List.filter_append, ← skeleton, bar]
            simp [Draft.skeleton]
          · rw [List.filterMap_append, untouched, List.append_nil]
            exact files

/-- An accepted token brings no operator that was read before. -/
theorem unused_of_add (accepted : draft.add token = .ok next) {operator : Operator}
    (is : token.operator? = some operator) : ¬ draft.Used operator := by
  cases token with
  | word text => simp [Token.operator?] at is
  | redirect direction target =>
      obtain rfl : Operator.redirect direction = operator := by simpa [Token.operator?] using is
      intro used
      have used : (draft.redirects.target direction).isSome = true := used
      simp [Draft.add, used] at accepted
  | pipe =>
      obtain rfl : Operator.pipe = operator := by simpa [Token.operator?] using is
      intro used
      obtain ⟨stage, second⟩ := Option.isSome_iff_exists.1 used
      simp [Draft.add, second] at accepted

/-- A token is refused because its operator was read before. -/
theorem used_of_refused {error : ParseError} (refused : draft.add token = .error error) :
    ∃ operator, token.operator? = some operator ∧ draft.Used operator ∧
      error = operator.repetition := by
  cases token with
  | word text => cases second : draft.second <;> simp [Draft.add, second] at refused
  | redirect direction target =>
      simp only [Draft.add] at refused
      split at refused
      · next used =>
          cases refused
          exact ⟨.redirect direction, rfl, used, rfl⟩
      · simp at refused
  | pipe =>
      cases second : draft.second with
      | none => simp [Draft.add, second] at refused
      | some stage =>
          have refused : ParseError.tooManyStages = error := by simpa [Draft.add, second] using refused
          exact ⟨.pipe, rfl, by simp [Used, second], refused.symm⟩

/-! ## Reading all tokens -/

/-- When every token is accepted, the draft holds them all and no operator occurs twice. -/
theorem Holds.foldlM_ok (holds : draft.Holds read) (single : (read.filterMap Token.operator?).Nodup)
    (accepted : tokens.foldlM Draft.add draft = .ok next) :
    next.Holds (read ++ tokens) ∧ ((read ++ tokens).filterMap Token.operator?).Nodup := by
  induction tokens generalizing draft read with
  | nil =>
      obtain rfl : draft = next := by simpa [pure, Except.pure] using accepted
      simpa using ⟨holds, single⟩
  | cons token rest ih =>
      rw [List.foldlM_cons, bind_eq_ok_iff] at accepted
      obtain ⟨middle, added, accepted⟩ := accepted
      have singleMore : ((read ++ [token]).filterMap Token.operator?).Nodup := by
        rw [List.filterMap_append]
        cases is : token.operator? with
        | none => simpa [is] using single
        | some operator =>
            have fresh : operator ∉ read.filterMap Token.operator? :=
              mt (holds.used_iff operator).1 (unused_of_add added is)
            have alone : [token].filterMap Token.operator? = [operator] := by simp [is]
            rw [alone]
            exact List.nodup_append.2 ⟨single, by simp, by
              rintro _ mem _ last rfl
              exact fresh (List.mem_singleton.1 last ▸ mem)⟩
      simpa using ih (holds.add added) singleMore accepted

/-- When a token is refused, its operator is the first one that occurs for the second time. -/
theorem Holds.foldlM_error (holds : draft.Holds read)
    (single : (read.filterMap Token.operator?).Nodup) {error : ParseError}
    (refused : tokens.foldlM Draft.add draft = .error error) :
    ∃ before token after operator, read ++ tokens = before ++ token :: after ∧
      token.operator? = some operator ∧ operator ∈ before.filterMap Token.operator? ∧
      (before.filterMap Token.operator?).Nodup ∧ error = operator.repetition := by
  induction tokens generalizing draft read with
  | nil => simp [pure, Except.pure] at refused
  | cons token rest ih =>
      rw [List.foldlM_cons, bind_eq_error_iff] at refused
      rcases refused with refused | ⟨middle, added, refused⟩
      · obtain ⟨operator, is, used, rfl⟩ := used_of_refused refused
        exact ⟨read, token, rest, operator, rfl, is, (holds.used_iff operator).2 used, single, rfl⟩
      · have one : [token].foldlM Draft.add draft = .ok middle := by
          simp [added, bind, Except.bind, pure, Except.pure]
        have more := holds.foldlM_ok single one
        simpa using ih more.1 more.2 refused

end Draft

/-! ## Finishing -/

/-- The words and bars of a line, in order. -/
def skeleton : Line → List Token
  | .simple command => command.tokens.map .word
  | .pipe left right => left.tokens.map .word ++ .pipe :: right.tokens.map .word

/-- The files of a line, with their directions. -/
def files : Line → List (Direction × Path)
  | .simple command => command.redirects.files
  | .pipe left right => left.redirects.files ++ right.redirects.files

/-- The middle streams of a pipe are not redirected. -/
def Wired : Line → Prop
  | .simple _ => True
  | .pipe left right => left.redirects.stdout = none ∧ right.redirects.stdin = none

/-- The draft that a line is finished from. -/
def draft : Line → Draft
  | .simple command => ⟨command.tokens, none, command.redirects⟩
  | .pipe left right => ⟨left.tokens, some right.tokens, ⟨left.redirects.stdin, right.redirects.stdout⟩⟩

theorem skeleton_draft (line : Line) : line.draft.skeleton = line.skeleton := by
  cases line with
  | simple command => exact List.append_nil _
  | pipe left right => rfl

theorem Wired.files_draft {line : Line} (wired : line.Wired) :
    line.draft.redirects.files = line.files := by
  cases line with
  | simple command => rfl
  | pipe left right =>
      obtain ⟨output, input⟩ := wired
      simp [draft, files, Redirects.files, output, input]

theorem Draft.finish_eq_ok_iff {draft : Draft} {line : Line} :
    draft.finish = .ok line ↔ draft = line.draft ∧ line.Wired := by
  constructor
  · intro finished
    obtain ⟨first, second, redirects⟩ := draft
    cases first with
    | nil => simp [Draft.finish, Command.ofTokens?] at finished
    | cons name arguments =>
        cases second with
        | none =>
            obtain rfl := Except.ok.inj finished
            exact ⟨rfl, trivial⟩
        | some stage =>
            cases stage with
            | nil => simp [Draft.finish, Command.ofTokens?] at finished
            | cons other more =>
                obtain rfl := Except.ok.inj finished
                exact ⟨rfl, rfl, rfl⟩
  · rintro ⟨rfl, wired⟩
    cases line with
    | simple command => rfl
    | pipe left right =>
        obtain ⟨name, arguments, stdin, stdout⟩ := left
        obtain ⟨other, more, otherStdin, otherStdout⟩ := right
        obtain ⟨rfl, rfl⟩ := wired
        rfl

/-- A stage without a name is all that can go wrong at the end. -/
theorem Draft.finish_eq_error_iff {draft : Draft} {error : ParseError} :
    draft.finish = .error error ↔
      error = .missingCommand ∧ (draft.first = [] ∨ draft.second = some []) := by
  obtain ⟨first, second, redirects⟩ := draft
  cases first with
  | nil => simp [Draft.finish, Command.ofTokens?, eq_comm]
  | cons name arguments =>
      cases second with
      | none => simp [Draft.finish, Command.ofTokens?]
      | some stage => cases stage <;> simp [Draft.finish, Command.ofTokens?, eq_comm]

end Line

end LineShell
