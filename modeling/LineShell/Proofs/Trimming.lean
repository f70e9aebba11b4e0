/-
# LineShell.Proofs.Trimming -- a text and the blanks around it

A text is flush when no blank stands at either end of it.  Stripping a text gives the
one flush text that it is with blanks around it (`strip_eq_iff`), so stripping is
known by what it leaves and not by how the two ends are found.  Blanks that are put
around a text change neither what is left when it is stripped nor its words
(`strip_padded`, `runs_padded`), and a text that is one word is this word with blanks
around it (`words_eq_singleton_iff`).
-/
import LineShell.Proofs.Layout
import Mathlib.Data.List.DropRight

namespace LineShell

set_option autoImplicit false

/-- No blank stands at either end. -/
structure Flush (text : List Char) : Prop where
  head : ∀ c ∈ text.head?, isBlank c = false
  last : ∀ c ∈ text.getLast?, isBlank c = false

variable {text before after : List Char}

/-! ## The end of a text -/

section Trailing

variable {p : Char → Bool}

/-- What is dropped at the end of a text satisfies the test. -/
theorem exists_dropTrailing (p : Char → Bool) (text : List Char) :
    ∃ after, text = dropTrailing p text ++ after ∧ ∀ c ∈ after, p c = true := by
  refine ⟨(text.reverse.takeWhile p).reverse, ?_, fun c mem => ?_⟩
  · rw [dropTrailing, ← List.reverse_append, List.takeWhile_append_dropWhile, List.reverse_reverse]
  · exact List.mem_takeWhile_imp (List.mem_reverse.1 mem)

theorem last_dropTrailing {c : Char} (last : c ∈ (dropTrailing p text).getLast?) : p c = false := by
  have some : text.rdropWhile p ≠ [] := by
    intro none
    rw [dropTrailing, show (text.reverse.dropWhile p).reverse = [] from none] at last
    cases last
  have unmatched := List.rdropWhile_last_not p text some
  have here : (text.rdropWhile p).getLast some = c :=
    Option.some.inj ((List.getLast?_eq_some_getLast some).symm.trans last)
  rw [here] at unmatched
  simpa using unmatched

theorem dropTrailing_append (all : ∀ c ∈ after, p c = true) :
    dropTrailing p (text ++ after) = dropTrailing p text := by
  rw [dropTrailing, List.reverse_append, List.dropWhile_append_of_pos (by simpa using all)]
  rfl

theorem dropTrailing_eq_self (last : ∀ c ∈ text.getLast?, p c = false) :
    dropTrailing p text = text := by
  refine List.rdropWhile_eq_self_iff.2 fun some => ?_
  have unmatched := last (text.getLast some) (List.getLast?_eq_some_getLast some)
  simp [unmatched]

end Trailing

/-! ## Both ends -/

/-- A text is what is left of it, with blanks around. -/
theorem exists_strip (text : List Char) : Flush (strip text) ∧ ∃ before after,
    (∀ c ∈ before, isBlank c = true) ∧ (∀ c ∈ after, isBlank c = true) ∧
      text = before ++ strip text ++ after := by
  obtain ⟨after, left, blankAfter⟩ := exists_dropTrailing isBlank (dropBlanks text)
  have whole : text.takeWhile isBlank ++ dropBlanks text = text := List.takeWhile_append_dropWhile
  refine ⟨⟨fun c head => ?_, fun c last => last_dropTrailing last⟩,
    text.takeWhile isBlank, after, fun c mem => List.mem_takeWhile_imp mem, blankAfter, ?_⟩
  · -- What is left begins where the text begins when its first blanks are gone.
    obtain ⟨rest, begun⟩ := List.head?_eq_some_iff.1 head
    have first : dropBlanks text = c :: (rest ++ after) := by
      rw [left, show dropTrailing isBlank (dropBlanks text) = c :: rest from begun]
      rfl
    have solid := List.head_dropWhile_not isBlank (l := text)
      (by rw [show text.dropWhile isBlank = _ from first]; exact List.cons_ne_nil _ _)
    simpa only [show text.dropWhile isBlank = _ from first, List.head_cons] using solid
  · rw [List.append_assoc, show strip text ++ after = dropBlanks text from left.symm, whole]

theorem strip_of_flush (flush : Flush text) (blankBefore : ∀ c ∈ before, isBlank c = true)
    (blankAfter : ∀ c ∈ after, isBlank c = true) : strip (before ++ text ++ after) = text := by
  unfold strip dropBlanks
  rw [List.append_assoc, List.dropWhile_append_of_pos blankBefore]
  cases text with
  | nil =>
      rw [List.nil_append, List.dropWhile_eq_nil_iff.2 blankAfter]
      rfl
  | cons c rest =>
      have solid : isBlank c = false := flush.head c rfl
      rw [List.cons_append, List.dropWhile_cons_of_neg (by simp [solid]), ← List.cons_append,
        dropTrailing_append blankAfter, dropTrailing_eq_self flush.last]

/-- Stripping gives the flush text that has nothing but blanks around it. -/
theorem strip_eq_iff {whole : List Char} : strip whole = text ↔ Flush text ∧ ∃ before after,
    (∀ c ∈ before, isBlank c = true) ∧ (∀ c ∈ after, isBlank c = true) ∧
      whole = before ++ text ++ after := by
  constructor
  · rintro rfl
    exact exists_strip whole
  · rintro ⟨flush, before, after, blankBefore, blankAfter, rfl⟩
    exact strip_of_flush flush blankBefore blankAfter

/-- Blanks around a text do not matter when it is stripped. -/
theorem strip_padded (blankBefore : ∀ c ∈ before, isBlank c = true)
    (blankAfter : ∀ c ∈ after, isBlank c = true) :
    strip (before ++ text ++ after) = strip text := by
  obtain ⟨flush, front, back, blankFront, blankBack, split⟩ := exists_strip text
  refine strip_eq_iff.2 ⟨flush, before ++ front, back ++ after, ?_, ?_, ?_⟩
  · exact List.forall_mem_append.2 ⟨blankBefore, blankFront⟩
  · exact List.forall_mem_append.2 ⟨blankBack, blankAfter⟩
  · conv_lhs => rw [split]
    simp only [List.append_assoc]

theorem strip_append_blanks (blank : ∀ c ∈ after, isBlank c = true) :
    strip (text ++ after) = strip text := by
  have none : ∀ c ∈ ([] : List Char), isBlank c = true := by simp
  exact strip_padded none blank

/-! ## Words -/

/-- Blanks around a text do not change its words. -/
theorem runs_padded (blankBefore : ∀ c ∈ before, isBlank c = true)
    (blankAfter : ∀ c ∈ after, isBlank c = true) : runs (before ++ text ++ after) = runs text := by
  rw [runs_append_blanks blankAfter, runs_blanks_append blankBefore]

/-- A text has the words of what is left when it is stripped. -/
theorem runs_strip (text : List Char) : runs (strip text) = runs text := by
  obtain ⟨_, before, after, blankBefore, blankAfter, split⟩ := exists_strip text
  conv_rhs => rw [split]
  exact (runs_padded blankBefore blankAfter).symm

/-- Texts of which the same is left have the same words. -/
theorem words_congr {line other : String} (same : strip line.toList = strip other.toList) :
    words line = words other := by
  rw [words, words, ← runs_strip line.toList, same, runs_strip]

theorem clean_of_all {word : String} (some : word ≠ "")
    (solid : (word.toList.all fun c => !isBlank c) = true) : Clean word :=
  ⟨some, fun c mem => by simpa using List.all_eq_true.1 solid c mem⟩

/-- A word has no blank at either end. -/
theorem Clean.flush {word : String} (clean : Clean word) : Flush word.toList :=
  ⟨fun c head => clean.2 c (List.mem_of_mem_head? head),
    fun c last => clean.2 c (List.mem_of_getLast? last)⟩

theorem words_of_clean {word : String} (clean : Clean word) : words word = [word] := by
  refine (words_eq_iff (by simpa using clean)).2 ?_
  have layout : Layout [word] ([] ++ word.toList ++ []) := .word (by simp) rfl (.blanks (by simp))
  simpa using layout

/-- A text has a single word exactly when this is what is left of it. -/
theorem words_eq_singleton_iff {line word : String} (clean : Clean word) :
    words line = [word] ↔ strip line.toList = word.toList := by
  constructor
  · intro single
    have layout := layout_words line
    rw [single] at layout
    generalize line.toList = text at layout
    cases layout with
    | word blankBefore _ later =>
        cases later with
        | blanks blankAfter => exact strip_of_flush clean.flush blankBefore blankAfter
  · intro left
    have same : strip line.toList = strip word.toList := by
      have whole : strip ([] ++ word.toList ++ []) = word.toList :=
        strip_of_flush clean.flush (by simp) (by simp)
      rw [List.nil_append, List.append_nil] at whole
      rw [left, whole]
    rw [words_congr same, words_of_clean clean]

example : strip "\u3000cd\t a b \r\n".toList = "cd\t a b".toList := by
  decide +kernel

end LineShell
