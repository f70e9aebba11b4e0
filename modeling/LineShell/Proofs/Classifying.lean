/-
# LineShell.Proofs.Classifying -- tokens and words determine each other

A token is legible when its word or its file name can stand in a line and is no
operator.  Lists of legible tokens and lists of words that can be classified
correspond to each other: the tokens of a line spell its words, no other legible
tokens do (`Token.ofLine_eq_ok_iff`, `Token.spelling_injOn`), and every layout of
what legible tokens spell is read as these tokens again.

Classifying fails for one reason only, a `<` or `>` without a file name, and then the
leftmost one is reported (`Token.ofLine_eq_error_iff`).

`Token.ofLine_exact` puts this together for every text.
-/
import LineShell.Proofs.Faults
import LineShell.Proofs.Rendering

namespace LineShell

set_option autoImplicit false

/-- An operator with other characters before or after it. -/
def Glued (word : String) : Prop :=
  ∃ before operator after, word = before ++ Operator.spelling operator ++ after ∧ before ++ after ≠ ""

theorem Operator.length_spelling (operator : Operator) : operator.spelling.length = 1 := by
  cases operator with
  | redirect direction => cases direction <;> rfl
  | pipe => rfl

theorem Glued.not_operator {word : String} (glued : Glued word) : Operator.ofWord? word = none := by
  obtain ⟨before, operator, after, rfl, more⟩ := glued
  cases read : Operator.ofWord? (before ++ operator.spelling ++ after) with
  | none => rfl
  | some other =>
      -- An operator has one character, which leaves nothing for the rest.
      have spelt := congrArg String.length (Operator.spelling_of_ofWord? read)
      rw [String.length_append, String.length_append, operator.length_spelling,
        other.length_spelling] at spelt
      have none : (before ++ after).length = 0 := by
        rw [String.length_append]
        omega
      exact absurd (String.length_eq_zero_iff.1 none) more

namespace Token

variable {token : Token} {tokens : List Token} {text word : String}

/-- The word or the file name of a token means itself. -/
def Legible : Token → Prop
  | .word text => Plain text
  | .redirect _ target => Plain target
  | .pipe => True

theorem Legible.readable (legible : token.Legible) : token.Readable := by
  cases token with
  | word text => exact legible.not_operator
  | redirect direction target => exact legible.not_operator
  | pipe => exact legible

theorem Legible.clean (legible : token.Legible) : ∀ word ∈ token.spelling, Clean word := by
  cases token with
  | word text => simpa [spelling] using legible.1
  | redirect direction target =>
      have arrow : Clean direction.operator := (Operator.redirect direction).spelling_clean
      simpa [spelling] using ⟨arrow, legible.1⟩
  | pipe =>
      have bar : Clean "|" := Operator.pipe.spelling_clean
      simpa [spelling] using bar

/-- A token is legible when it can be read back and its words can stand in a line. -/
theorem legible_iff : token.Legible ↔ token.Readable ∧ ∀ word ∈ token.spelling, Clean word := by
  constructor
  · exact fun legible => ⟨legible.readable, legible.clean⟩
  · rintro ⟨readable, clean⟩
    cases token with
    | word text => exact ⟨clean text (by simp [spelling]), Operator.ofWord?_eq_none_iff.1 readable⟩
    | redirect direction target =>
        exact ⟨clean target (by simp [spelling]), Operator.ofWord?_eq_none_iff.1 readable⟩
    | pipe => trivial

theorem legible_iff_of_list : (∀ token ∈ tokens, token.Legible) ↔
    (∀ token ∈ tokens, token.Readable) ∧ ∀ word ∈ tokens.flatMap spelling, Clean word := by
  simp only [legible_iff, List.mem_flatMap]
  constructor
  · intro legible
    refine ⟨fun token mem => (legible token mem).1, ?_⟩
    rintro word ⟨token, mem, inside⟩
    exact (legible token mem).2 word inside
  · rintro ⟨readable, clean⟩ token mem
    exact ⟨readable token mem, fun word inside => clean word ⟨token, mem, inside⟩⟩

/-- The tokens of a line are the legible ones that spell its words. -/
theorem ofLine_eq_ok_iff : ofLine text = .ok tokens ↔
    (∀ token ∈ tokens, token.Legible) ∧ tokens.flatMap spelling = words text := by
  rw [ofLine, ofWords_eq_ok_iff, legible_iff_of_list]
  constructor
  · rintro ⟨spelt, readable⟩
    refine ⟨⟨readable, ?_⟩, spelt⟩
    rw [spelt]
    exact fun word mem => words_clean mem
  · rintro ⟨⟨readable, _⟩, spelt⟩
    exact ⟨spelt, readable⟩

/-- Legible tokens can be told from what they spell. -/
theorem spelling_injOn {other : List Token} (legible : ∀ token ∈ tokens, token.Legible)
    (also : ∀ token ∈ other, token.Legible)
    (same : other.flatMap spelling = tokens.flatMap spelling) : other = tokens := by
  have read : ofWords (tokens.flatMap spelling) = .ok tokens :=
    ofWords_spelling fun token mem => (legible token mem).readable
  have readOther : ofWords (other.flatMap spelling) = .ok other :=
    ofWords_spelling fun token mem => (also token mem).readable
  rw [same, read] at readOther
  exact (Except.ok.inj readOther).symm

/-- Every layout of what legible tokens spell is read as these tokens. -/
theorem ofLine_of_layout (legible : ∀ token ∈ tokens, token.Legible)
    (layout : Layout (tokens.flatMap spelling) text.toList) : ofLine text = .ok tokens := by
  have clean := (legible_iff_of_list.1 legible).2
  exact ofLine_eq_ok_iff.2 ⟨legible, ((words_eq_iff clean).2 layout).symm⟩

/-- A word that is no operator is the text of a word or a file name. -/
theorem mem_of_spelling (mem : word ∈ token.spelling) (plain : Operator.ofWord? word = none) :
    token = .word word ∨ ∃ direction, token = .redirect direction word := by
  cases token with
  | word text =>
      obtain rfl : word = text := by simpa [spelling] using mem
      exact .inl rfl
  | redirect direction target =>
      have either : word = direction.operator ∨ word = target := by simpa [spelling] using mem
      rcases either with rfl | rfl
      · have arrow : Operator.ofWord? direction.operator = some (.redirect direction) :=
          Operator.ofWord?_spelling (.redirect direction)
        rw [arrow] at plain
        cases plain
      · exact .inr ⟨direction, rfl⟩
  | pipe =>
      obtain rfl : word = "|" := by simpa [spelling] using mem
      have bar : Operator.ofWord? "|" = some .pipe := rfl
      rw [bar] at plain
      cases plain

/-- Classifying fails exactly at the leftmost redirection without a file name. -/
theorem ofLine_eq_error_iff {error : ParseError} : ofLine text = .error error ↔
    ∃ direction, error = .missingTarget direction ∧ First (BareAt (words text)) direction := by
  constructor
  · exact fun refused => first_bareAt_of_error refused
  · rintro ⟨direction, rfl, first⟩
    cases read : ofLine text with
    | ok tokens =>
        obtain ⟨place, bare, _⟩ := first
        exact absurd bare (not_bareAt_of_ok read place direction)
    | error other =>
        obtain ⟨found, rfl, also⟩ := first_bareAt_of_error read
        rw [also.unique first fun _ _ _ => BareAt.functional]

/-- A text is read as the only legible tokens that spell its words, and not at all if a redirection
lacks its file name; every layout of legible tokens is read as these tokens. -/
theorem ofLine_exact (text : String) :
    ((∀ word ∈ words text, Clean word) ∧ Layout (words text) text.toList) ∧
      (∀ tokens, ofLine text = .ok tokens →
        tokens.flatMap spelling = words text ∧ (∀ token ∈ tokens, token.Legible) ∧
          (∀ other, (∀ token ∈ other, token.Legible) →
            other.flatMap spelling = tokens.flatMap spelling → other = tokens) ∧
          ∀ word ∈ words text, Glued word →
            .word word ∈ tokens ∨ ∃ direction, .redirect direction word ∈ tokens) ∧
      ((∃ error, ofLine text = .error error) ↔
        ∃ place direction, BareAt (words text) place direction) ∧
      (∀ error, ofLine text = .error error ↔
        ∃ direction, error = .missingTarget direction ∧ First (BareAt (words text)) direction) ∧
      ∀ tokens, (∀ token ∈ tokens, token.Legible) → Layout (tokens.flatMap spelling) text.toList →
        ofLine text = .ok tokens := by
  refine ⟨⟨fun word mem => words_clean mem, layout_words text⟩, fun tokens read => ?_, ?_,
    fun error => ofLine_eq_error_iff, fun tokens => ofLine_of_layout⟩
  · obtain ⟨legible, spelt⟩ := ofLine_eq_ok_iff.1 read
    refine ⟨spelt, legible, fun other => spelling_injOn legible, fun word mem glued => ?_⟩
    rw [← spelt] at mem
    obtain ⟨token, inTokens, inSpelling⟩ := List.mem_flatMap.1 mem
    rcases mem_of_spelling inSpelling glued.not_operator with rfl | ⟨direction, rfl⟩
    · exact .inl inTokens
    · exact .inr ⟨direction, inTokens⟩
  · constructor
    · rintro ⟨error, refused⟩
      obtain ⟨direction, _, place, bare, _⟩ := ofLine_eq_error_iff.1 refused
      exact ⟨place, direction, bare⟩
    · rintro ⟨place, direction, bare⟩
      cases read : ofLine text with
      | ok tokens => exact absurd bare (not_bareAt_of_ok read place direction)
      | error error => exact ⟨error, rfl⟩

example : ofLine " a>b <in\u00a0< in\t| >> " = .ok [.word "a>b", .word "<in", .redirect .input "in",
    .pipe, .word ">>"] := by
  decide +kernel

end Token

end LineShell
