/-
# LineShell.Proofs.Recognising -- builtins, told from the words of a line

A builtin is recognised in the text of a line when the blanks around it are gone.  Which
one it is can be told from the words: `exit` is the only word, or `cd` is the first one
and is either the only one or has a space or a tab directly behind it (`Spaced`); other
blanks in this place make `cd` the name of a command.

What `cd` is given is the text from the second word to the last one (`Behind`), whatever
stands in between.  The empty argument, which means the user's own directory, comes from
the lone word only: a text that was stripped does not end with a blank, so there is
something behind a blank that follows `cd`.

`Builtin.recognised_by_words` is the statement about all lines.
-/
import LineShell.Proofs.Trimming
import LineShell.Session

namespace LineShell

set_option autoImplicit false

variable {line argument word : String} {text rest : List Char} {c : Char}

/-! ## What stands behind the first word -/

/-- The line begins with a word, blanks aside, and a space or a tab stands directly behind it. -/
def Spaced (word line : String) : Prop :=
  ∃ before c after, line.toList = before ++ word.toList ++ c :: after ∧
    (∀ blank ∈ before, isBlank blank = true) ∧ (c = ' ' ∨ c = '\t')

/-- The line begins with a word, and the text stands from the first character of the second word to
the last character of the last one. -/
structure Behind (word line text : String) : Prop where
  split : ∃ before gap after, line.toList = before ++ word.toList ++ gap ++ text.toList ++ after ∧
    (∀ c ∈ before, isBlank c = true) ∧ (∀ c ∈ gap, isBlank c = true) ∧
      (∀ c ∈ after, isBlank c = true) ∧ gap ≠ []
  some : text ≠ ""
  flush : Flush text.toList

/-- The second word of the line is the first one of the text behind the first word, and so on. -/
theorem Behind.words_eq {text : String} (behind : Behind word line text) (clean : Clean word) :
    words line = word :: words text := by
  obtain ⟨before, gap, after, split, blankBefore, blankGap, blankAfter, some⟩ := behind.split
  have apart : atBlank (gap ++ text.toList) = true := by
    cases gap with
    | nil => exact absurd rfl some
    | cons c more => exact blankGap c List.mem_cons_self
  have nonempty : word.toList ≠ [] := by simpa using clean.1
  have read : runs line.toList = word.toList :: runs text.toList := by
    rw [split, List.append_assoc before, List.append_assoc before, runs_padded blankBefore blankAfter,
      List.append_assoc, runs_word_append clean.2 nonempty apart, runs_blanks_append blankGap]
  rw [words, words, read, List.map_cons, String.ofList_toList]

/-- There is a second word. -/
theorem Behind.words_ne_nil {text : String} (behind : Behind word line text) : words text ≠ [] := by
  have some : text.toList ≠ [] := by simpa using behind.some
  obtain ⟨c, rest, begun⟩ := List.exists_cons_of_ne_nil some
  have solid : isBlank c = false := behind.flush.head c (by rw [begun]; rfl)
  have inside : atBlank text.toList = false := by rw [begun]; exact solid
  simpa [words] using runs_ne_nil_of_not_atBlank inside

theorem isBlank_of_space_or_tab (gap : c = ' ' ∨ c = '\t') : isBlank c = true := by
  rcases gap with rfl | rfl <;> rfl

/-- A text that does not end with a blank goes on behind any blank in it. -/
theorem strip_ne_nil_of_last (last : ∀ d ∈ (c :: rest).getLast?, isBlank d = false) :
    strip (c :: rest) ≠ [] := by
  intro none
  obtain ⟨_, before, after, blankBefore, blankAfter, split⟩ := exists_strip (c :: rest)
  rw [none, List.append_nil] at split
  have blank : ∀ d ∈ c :: rest, isBlank d = true := by
    rw [split]
    exact List.forall_mem_append.2 ⟨blankBefore, blankAfter⟩
  have ending := List.getLast?_eq_some_getLast (List.cons_ne_nil c rest)
  have solid := last _ ending
  rw [blank _ (List.getLast_mem _)] at solid
  cases solid

/-- A blank that text follows is the first one before this text. -/
theorem exists_gap (blank : isBlank c = true) (some : strip (c :: rest) ≠ []) :
    ∃ gap after, (∀ d ∈ c :: gap, isBlank d = true) ∧ (∀ d ∈ after, isBlank d = true) ∧
      c :: rest = c :: gap ++ strip (c :: rest) ++ after := by
  obtain ⟨flush, before, after, blankBefore, blankAfter, split⟩ := exists_strip (c :: rest)
  cases before with
  | nil =>
      cases left : strip (c :: rest) with
      | nil => exact absurd left some
      | cons d more =>
          rw [left] at split flush
          have solid : isBlank d = false := flush.head d rfl
          obtain ⟨rfl, _⟩ : c = d ∧ rest = more ++ after := by simpa using split
          rw [blank] at solid
          cases solid
  | cons d gap =>
      obtain ⟨rfl, _⟩ : c = d ∧ _ := by simpa using split
      exact ⟨gap, after, blankBefore, blankAfter, split⟩

namespace Builtin

/-! ## The text of a builtin -/

theorem clean_exit : Clean "exit" :=
  clean_of_all (by simp) rfl

theorem clean_cd : Clean "cd" :=
  clean_of_all (by simp) rfl

theorem ofStripped?_eq_exit_iff : ofStripped? text = some .exit ↔ text = "exit".toList := by
  constructor
  · intro recognised
    unfold ofStripped? at recognised
    split at recognised
    · rfl
    · cases recognised
    · split at recognised <;> cases recognised
    · cases recognised
  · rintro rfl
    rfl

/-- The two ways in which a change of the directory is written. -/
theorem ofStripped?_eq_changeDirectory_iff :
    ofStripped? text = some (.changeDirectory argument) ↔
      (text = "cd".toList ∧ argument = "") ∨
        ∃ c rest, text = "cd".toList ++ c :: rest ∧ (c = ' ' ∨ c = '\t') ∧
          argument = String.ofList (strip (c :: rest)) := by
  constructor
  · intro recognised
    unfold ofStripped? at recognised
    split at recognised
    · cases recognised
    · cases recognised
      exact .inl ⟨rfl, rfl⟩
    · next c rest =>
        split at recognised
        · next gap =>
            cases recognised
            exact .inr ⟨c, rest, rfl, by simpa using gap, rfl⟩
        · cases recognised
    · cases recognised
  · rintro (⟨rfl, rfl⟩ | ⟨c, rest, rfl, gap, rfl⟩)
    · rfl
    · simp [ofStripped?, gap]

/-- A line that begins with `cd` and a space or a tab changes the directory. -/
theorem ofLine?_of_spaced (spaced : Spaced "cd" line) :
    ∃ argument, ofLine? line = some (.changeDirectory argument) := by
  obtain ⟨before, c, rest, split, blankBefore, gap⟩ := spaced
  unfold ofLine?
  cases left : strip (c :: rest) with
  | nil =>
      obtain ⟨_, front, back, blankFront, blankBack, whole⟩ := exists_strip (c :: rest)
      rw [left, List.append_nil] at whole
      have blank : ∀ d ∈ c :: rest, isBlank d = true := by
        rw [whole]
        exact List.forall_mem_append.2 ⟨blankFront, blankBack⟩
      have alone : strip line.toList = "cd".toList := by
        rw [split]
        exact strip_of_flush clean_cd.flush blankBefore blank
      exact ⟨"", ofStripped?_eq_changeDirectory_iff.2 (.inl ⟨alone, rfl⟩)⟩
  | cons d more =>
      have some : strip (c :: rest) ≠ [] := by simp [left]
      have inner : Flush (strip (c :: rest)) := (exists_strip (c :: rest)).1
      obtain ⟨front, back, _, blankBack, whole⟩ := exists_gap (isBlank_of_space_or_tab gap) some
      generalize strip (c :: rest) = target at some inner whole
      have flush : Flush ("cd".toList ++ (c :: front ++ target)) := by
        refine ⟨fun e head => ?_, fun e last => inner.last e ?_⟩
        · obtain rfl : 'c' = e := Option.some.inj head
          rfl
        · rwa [← List.append_assoc, List.getLast?_append_of_ne_nil _ some] at last
      have begun : strip line.toList = "cd".toList ++ c :: (front ++ target) := by
        have stripped := strip_of_flush flush blankBefore blankBack
        rw [split, whole]
        simpa using stripped
      exact ⟨_, ofStripped?_eq_changeDirectory_iff.2 (.inr ⟨c, _, begun, gap, rfl⟩)⟩

/-- What `cd` is given, and where it stands in the line. -/
theorem of_changeDirectory (recognised : ofLine? line = some (.changeDirectory argument)) :
    (words line = ["cd"] ∧ argument = "") ∨ (Spaced "cd" line ∧ Behind "cd" line argument) := by
  obtain ⟨flush, before, after, blankBefore, blankAfter, split⟩ := exists_strip line.toList
  rcases ofStripped?_eq_changeDirectory_iff.1 recognised with
    ⟨alone, rfl⟩ | ⟨c, rest, begun, gap, rfl⟩
  · exact .inl ⟨(words_eq_singleton_iff clean_cd).2 alone, rfl⟩
  · rw [begun] at flush split
    have some : strip (c :: rest) ≠ [] := by
      refine strip_ne_nil_of_last fun d last => flush.last d ?_
      rwa [List.getLast?_append_of_ne_nil _ (List.cons_ne_nil c rest)]
    have inner : Flush (strip (c :: rest)) := (exists_strip (c :: rest)).1
    obtain ⟨front, back, blankFront, blankBack, whole⟩ := exists_gap (isBlank_of_space_or_tab gap) some
    have spaced : Spaced "cd" line := ⟨before, c, rest ++ after, by simpa using split, blankBefore, gap⟩
    generalize strip (c :: rest) = target at some inner whole
    refine .inr ⟨spaced, ⟨before, c :: front, back ++ after, ?_, blankBefore, blankFront,
      List.forall_mem_append.2 ⟨blankBack, blankAfter⟩, List.cons_ne_nil c front⟩, ?_, ?_⟩
    · rw [split, whole]
      simp only [String.toList_ofList, List.append_assoc]
    · simpa using some
    · rwa [String.toList_ofList]

/-! ## Every line -/

/-- What a line is recognised as, told from its words. -/
structure Recognised (line : String) (found : Option Builtin) : Prop where
  exit : found = some .exit ↔ words line = ["exit"]
  /-- The first word is `cd`, and it is the only one or followed by a space or a tab. -/
  changes : (∃ argument, found = some (.changeDirectory argument)) ↔
    (words line).head? = some "cd" ∧ (words line = ["cd"] ∨ Spaced "cd" line)
  nothing : found = none ↔ words line ≠ ["exit"] ∧
    ¬ ((words line).head? = some "cd" ∧ (words line = ["cd"] ∨ Spaced "cd" line))
  /-- The argument is empty, and the user's own directory is meant, for the lone word only. -/
  empty : ∀ argument, found = some (.changeDirectory argument) →
    (argument = "" ↔ words line = ["cd"]) ∧
      (Session.directoryArgument argument = none ↔ words line = ["cd"])
  /-- Otherwise it is the text from the second word to the last one. -/
  argument : ∀ argument, found = some (.changeDirectory argument) → words line ≠ ["cd"] →
    Behind "cd" line argument ∧ words line = "cd" :: words argument
  flush : ∀ argument, found = some (.changeDirectory argument) → Flush argument.toList

/-- A builtin is recognised by the words of the line and by what follows the first one. -/
theorem recognised_by_words (line : String) : Recognised line (ofLine? line) := by
  have exit : ofLine? line = some .exit ↔ words line = ["exit"] := by
    rw [words_eq_singleton_iff clean_exit]
    exact ofStripped?_eq_exit_iff
  have changes : (∃ argument, ofLine? line = some (.changeDirectory argument)) ↔
      (words line).head? = some "cd" ∧ (words line = ["cd"] ∨ Spaced "cd" line) := by
    constructor
    · rintro ⟨argument, recognised⟩
      rcases of_changeDirectory recognised with ⟨alone, _⟩ | ⟨spaced, behind⟩
      · exact ⟨by rw [alone]; rfl, .inl alone⟩
      · exact ⟨by rw [behind.words_eq clean_cd]; rfl, .inr spaced⟩
    · rintro ⟨_, alone | spaced⟩
      · have stripped := (words_eq_singleton_iff clean_cd).1 alone
        exact ⟨"", ofStripped?_eq_changeDirectory_iff.2 (.inl ⟨stripped, rfl⟩)⟩
      · exact ofLine?_of_spaced spaced
  have empty (argument : String) (recognised : ofLine? line = some (.changeDirectory argument)) :
      argument = "" ↔ words line = ["cd"] := by
    rcases of_changeDirectory recognised with ⟨alone, rfl⟩ | ⟨_, behind⟩
    · exact iff_of_true rfl alone
    · refine iff_of_false behind.some fun alone => ?_
      rw [behind.words_eq clean_cd] at alone
      exact behind.words_ne_nil (List.cons.inj alone).2
  refine ⟨exit, changes, ?_, fun argument recognised => ⟨empty argument recognised, ?_⟩, ?_, ?_⟩
  · rw [← changes, ne_eq, ← exit]
    cases ofLine? line with
    | none => simp
    | some builtin => cases builtin <;> simp
  · rw [← empty argument recognised]
    simp [Session.directoryArgument]
  · intro argument recognised other
    rcases of_changeDirectory recognised with ⟨alone, _⟩ | ⟨_, behind⟩
    · exact absurd alone other
    · exact ⟨behind, behind.words_eq clean_cd⟩
  · intro argument recognised
    rcases of_changeDirectory recognised with ⟨_, rfl⟩ | ⟨_, behind⟩
    · exact ⟨nofun, nofun⟩
    · exact behind.flush

-- A blank that is neither a space nor a tab belongs to the name of a command.
example : ofLine? "\u2003cd \t a  &\n" = some (.changeDirectory "a  &") ∧ ofLine? "cd\u00a0a" = none := by
  decide +kernel

end Builtin

end LineShell
