/-
# LineShell.Proofs.Rendering -- every way of writing a line down

A line is written as the words of its commands in order, with a bar between the
two stages of a pipe, and its redirections at any places among them: before the
name of a command, in the other stage, in either order (`Line.Rendered`).  The
words are then laid out with any blanks (`Layout`).

`Line.parse_eq_ok_iff` says that these texts, for a line whose words and file names
can be written at all (`Line.WellFormed`), are exactly the texts that are read as
that line.
-/
import LineShell.Proofs.Layout
import LineShell.Proofs.Reading

namespace LineShell

set_option autoImplicit false

/-- A word that means itself. -/
def Plain (word : String) : Prop :=
  Clean word ∧ Ordinary word

theorem Plain.not_operator {word : String} (plain : Plain word) : Operator.ofWord? word = none :=
  Operator.ofWord?_eq_none_iff.2 plain.2

theorem Operator.spelling_clean (operator : Operator) : Clean operator.spelling := by
  have single (c : Char) (solid : isBlank c = false) : Clean (String.ofList [c]) :=
    ⟨by simp, by simp [solid]⟩
  cases operator with
  | redirect direction =>
      cases direction with
      | input => exact single '<' rfl
      | output => exact single '>' rfl
  | pipe => exact single '|' rfl

/-! ## Texts and paths -/

/-- Two texts with the same bytes are the same. -/
theorem Bytes.ofText_injective : Function.Injective Bytes.ofText := by
  intro text other same
  rw [ofText_eq_data, ofText_eq_data, Array.toList_inj] at same
  exact String.toByteArray_inj.1 (ByteArray.ext same)

theorem Path.ofText_injective : Function.Injective Path.ofText :=
  fun _ _ same => Bytes.ofText_injective (Path.mk.inj same)

/-! ## Lines that can be written -/

namespace Line

/-- The words of the commands of a line. -/
def texts : Line → List String
  | .simple command => command.tokens
  | .pipe left right => left.tokens ++ right.tokens

/-- Every word and every file name can be written, and the middle streams are left alone. -/
structure WellFormed (line : Line) : Prop where
  texts : ∀ text ∈ line.texts, Plain text
  files : ∀ file ∈ line.files, ∃ target, Plain target ∧ file.2 = Path.ofText target
  wired : line.Wired

/-- The tokens are the words and bars of the line in order, and its files anywhere among them. -/
structure Rendered (line : Line) (tokens : List Token) : Prop where
  skeleton : tokens.filter Token.isPlain = line.skeleton
  files : (tokens.filterMap Token.file?).Perm line.files

variable {line : Line} {tokens : List Token}

theorem rendered_iff_holds (wired : line.Wired) : line.Rendered tokens ↔ line.draft.Holds tokens := by
  constructor
  · rintro ⟨skeleton, files⟩
    exact ⟨line.skeleton_draft.trans skeleton.symm, wired.files_draft ▸ files.symm⟩
  · rintro ⟨skeleton, files⟩
    exact ⟨skeleton.symm.trans line.skeleton_draft, wired.files_draft ▸ files.symm⟩

theorem word_mem_skeleton {text : String} : Token.word text ∈ line.skeleton ↔ text ∈ line.texts := by
  cases line <;> simp [skeleton, texts]

/-! ## No operator is written twice -/

theorem count_pipe_operators (tokens : List Token) :
    (tokens.filterMap Token.operator?).count .pipe = (tokens.filter Token.isPlain).count .pipe := by
  induction tokens with
  | nil => rfl
  | cons token rest ih =>
      rw [List.filterMap_cons, List.filter_cons]
      cases token with
      | word text => simpa [Token.operator?, Token.isPlain] using ih
      | redirect direction target => simpa [Token.operator?, Token.isPlain] using ih
      | pipe => simpa [Token.operator?, Token.isPlain] using ih

theorem count_redirect_operators (tokens : List Token) (direction : Direction) :
    (tokens.filterMap Token.operator?).count (.redirect direction) =
      ((tokens.filterMap Token.file?).map Prod.fst).count direction := by
  induction tokens with
  | nil => rfl
  | cons token rest ih =>
      rw [List.filterMap_cons, List.filterMap_cons]
      cases token with
      | word text => simpa [Token.operator?, Token.file?] using ih
      | pipe => simpa [Token.operator?, Token.file?] using ih
      | redirect other target => simp [Token.operator?, Token.file?, List.count_cons, ih]

theorem count_pipe_skeleton (line : Line) : line.skeleton.count .pipe ≤ 1 := by
  have none (texts : List String) : (texts.map Token.word).count .pipe = 0 := by
    simp [List.count_eq_zero]
  cases line with
  | simple command => simp [skeleton, none]
  | pipe left right => simp [skeleton, none]

theorem Rendered.single (rendered : line.Rendered tokens) (wired : line.Wired) :
    (tokens.filterMap Token.operator?).Nodup := by
  refine List.nodup_iff_count.2 fun operator => ?_
  cases operator with
  | pipe =>
      rw [count_pipe_operators, rendered.skeleton]
      exact count_pipe_skeleton line
  | redirect direction =>
      rw [count_redirect_operators, (rendered.files.map Prod.fst).count_eq, ← wired.files_draft]
      exact List.nodup_iff_count.1 (Redirects.files_nodup _) direction

/-! ## Reading what was written -/

/-- The tokens make a line exactly when they render it. -/
theorem ofTokens_eq_ok_iff : ofTokens tokens = .ok line ↔ line.Wired ∧ line.Rendered tokens := by
  unfold ofTokens
  constructor
  · intro made
    split at made
    · simp at made
    · obtain ⟨draft, accepted, finished⟩ := bind_eq_ok_iff.1 made
      obtain ⟨rfl, wired⟩ := Draft.finish_eq_ok_iff.1 finished
      have holds := (Draft.empty_holds.foldlM_ok (by simp) accepted).1
      exact ⟨wired, (rendered_iff_holds wired).2 holds⟩
  · rintro ⟨wired, rendered⟩
    have nonempty : tokens.isEmpty = false := by
      rw [List.isEmpty_eq_false_iff]
      rintro rfl
      have none : line.skeleton = [] := rendered.skeleton.symm
      cases line <;> simp [skeleton, Command.tokens] at none
    rw [if_neg (by simp [nonempty]), bind_eq_ok_iff]
    cases accepted : tokens.foldlM Draft.add Draft.empty with
    | error error =>
        obtain ⟨before, token, after, operator, rfl, is, old, _, _⟩ :=
          Draft.empty_holds.foldlM_error (by simp) accepted
        have single := rendered.single wired
        simp only [List.filterMap_append, List.filterMap_cons, is] at single
        exact absurd rfl ((List.nodup_append.1 single).2.2 operator old operator List.mem_cons_self)
    | ok draft =>
        have holds := (Draft.empty_holds.foldlM_ok (by simp) accepted).1
        have same : draft = line.draft := holds.unique ((rendered_iff_holds wired).1 rendered)
        exact ⟨draft, rfl, Draft.finish_eq_ok_iff.2 ⟨same, wired⟩⟩

/-- What a line is written with can be read back. -/
theorem WellFormed.readable (wellFormed : line.WellFormed) (rendered : line.Rendered tokens) :
    ∀ token ∈ tokens, token.Readable ∧ ∀ word ∈ token.spelling, Clean word := by
  intro token mem
  cases token with
  | word text =>
      have inLine : Token.word text ∈ line.skeleton :=
        rendered.skeleton ▸ List.mem_filter.2 ⟨mem, rfl⟩
      have plain := wellFormed.texts text (word_mem_skeleton.1 inLine)
      exact ⟨plain.not_operator, by simpa [Token.spelling] using plain.1⟩
  | redirect direction target =>
      have inLine : (direction, Path.ofText target) ∈ line.files :=
        rendered.files.mem_iff.1 (List.mem_filterMap.2 ⟨_, mem, rfl⟩)
      obtain ⟨other, plain, same⟩ := wellFormed.files _ inLine
      obtain rfl : target = other := Path.ofText_injective same
      refine ⟨plain.not_operator, ?_⟩
      simpa [Token.spelling] using ⟨(Operator.redirect direction).spelling_clean, plain.1⟩
  | pipe =>
      have bar : Clean "|" := Operator.pipe.spelling_clean
      exact ⟨trivial, by simpa [Token.spelling] using bar⟩

/-- Tokens that can be read back belong to a line that can be written. -/
theorem Rendered.wellFormed (rendered : line.Rendered tokens) (wired : line.Wired)
    (readable : ∀ token ∈ tokens, token.Readable)
    (clean : ∀ word ∈ tokens.flatMap Token.spelling, Clean word) : line.WellFormed where
  texts := by
    intro text mem
    have inTokens : Token.word text ∈ tokens := by
      have inLine := word_mem_skeleton.2 mem
      rw [← rendered.skeleton] at inLine
      exact (List.mem_filter.1 inLine).1
    exact ⟨clean text (List.mem_flatMap.2 ⟨_, inTokens, by simp [Token.spelling]⟩),
      Operator.ofWord?_eq_none_iff.1 (readable _ inTokens)⟩
  files := by
    intro file mem
    obtain ⟨token, inTokens, is⟩ := List.mem_filterMap.1 (rendered.files.mem_iff.2 mem)
    cases token with
    | word text => simp [Token.file?] at is
    | pipe => simp [Token.file?] at is
    | redirect direction target =>
        obtain rfl := Option.some.inj is
        exact ⟨target, ⟨clean target (List.mem_flatMap.2 ⟨_, inTokens, by simp [Token.spelling]⟩),
          Operator.ofWord?_eq_none_iff.1 (readable _ inTokens)⟩, rfl⟩
  wired := wired

/-- A text is read as a line exactly when the line can be written and the text is one of the ways of
writing it. -/
theorem parse_eq_ok_iff (text : String) (line : Line) :
    parse text = .ok line ↔
      line.WellFormed ∧
        ∃ tokens, line.Rendered tokens ∧ Layout (tokens.flatMap Token.spelling) text.toList := by
  unfold parse Token.ofLine
  rw [bind_eq_ok_iff]
  constructor
  · rintro ⟨tokens, read, made⟩
    obtain ⟨spelt, readable⟩ := Token.ofWords_eq_ok_iff.1 read
    obtain ⟨wired, rendered⟩ := ofTokens_eq_ok_iff.1 made
    have clean : ∀ word ∈ tokens.flatMap Token.spelling, Clean word := by
      rw [spelt]
      exact fun word mem => words_clean mem
    refine ⟨rendered.wellFormed wired readable clean, tokens, rendered, ?_⟩
    rw [spelt]
    exact layout_words text
  · rintro ⟨wellFormed, tokens, rendered, layout⟩
    have readable := wellFormed.readable rendered
    have clean : ∀ word ∈ tokens.flatMap Token.spelling, Clean word := by
      intro word mem
      obtain ⟨token, inTokens, inSpelling⟩ := List.mem_flatMap.1 mem
      exact (readable token inTokens).2 word inSpelling
    refine ⟨tokens, ?_, ofTokens_eq_ok_iff.2 ⟨wellFormed.wired, rendered⟩⟩
    rw [(words_eq_iff clean).2 layout]
    exact Token.ofWords_spelling fun token mem => (readable token mem).1

example : parse " > out cat -n |\twc < in" = .ok (.pipe ⟨"cat", ["-n"], ⟨some (.ofText "in"), none⟩⟩
    ⟨"wc", [], ⟨none, some (.ofText "out")⟩⟩) := by
  decide +kernel

end Line

end LineShell
