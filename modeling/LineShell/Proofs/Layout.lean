/-
# LineShell.Proofs.Layout -- every way of writing words down

`Layout ws cs` says that the characters are the words in order, with at least one
blank between two words and any blanks before the first and after the last one.
`Clean` words are those that can be told apart again: a text is a layout of clean
words exactly when they are its words (`words_eq_iff`), so reading words back and
laying them out are inverse to each other.
-/
import LineShell.Blank

namespace LineShell

set_option autoImplicit false

/-- A word that can stand in a line: not empty, and without a blank. -/
def Clean (word : String) : Prop :=
  word ≠ "" ∧ ∀ c ∈ word.toList, isBlank c = false

/-- The characters are the words, with blanks between and around them. -/
inductive Layout : List String → List Char → Prop where
  | blanks {blanks : List Char} : (∀ c ∈ blanks, isBlank c = true) → Layout [] blanks
  | word {word : String} {rest : List String} {blanks later : List Char} :
      (∀ c ∈ blanks, isBlank c = true) → atBlank later = true → Layout rest later →
      Layout (word :: rest) (blanks ++ word.toList ++ later)

variable {c : Char} {cs : List Char} {ws : List String} {text : String}

theorem Layout.blank_cons (layout : Layout ws cs) (blank : isBlank c = true) : Layout ws (c :: cs) := by
  cases layout with
  | blanks blanks => exact .blanks (List.forall_mem_cons.2 ⟨blank, blanks⟩)
  | word blanks apart later => exact .word (List.forall_mem_cons.2 ⟨blank, blanks⟩) apart later

/-- A first word that begins right here has no blanks before it. -/
theorem Layout.extend (layout : Layout ws cs) (inside : atBlank cs = false) :
    ∃ first rest, ws = first :: rest ∧
      Layout (String.ofList (c :: first.toList) :: rest) (c :: cs) := by
  cases layout with
  | blanks blanks =>
      cases cs with
      | nil => simp [atBlank] at inside
      | cons d later =>
          have blank : isBlank d = true := blanks d List.mem_cons_self
          simp [atBlank, blank] at inside
  | @word first rest blanks later blank apart layout =>
      cases blanks with
      | nil =>
          refine ⟨first, rest, rfl, ?_⟩
          have written : Layout (String.ofList (c :: first.toList) :: rest)
              ([] ++ (String.ofList (c :: first.toList)).toList ++ later) :=
            .word (by simp) apart layout
          simpa using written
      | cons d more =>
          have here : isBlank d = true := blank d List.mem_cons_self
          simp [atBlank, here] at inside

theorem layout_runs (cs : List Char) : Layout ((runs cs).map String.ofList) cs := by
  induction cs with
  | nil => exact .blanks (by simp)
  | cons c rest ih =>
      cases blank : isBlank c with
      | true =>
          rw [runs_blank_cons blank]
          exact ih.blank_cons blank
      | false =>
          cases apart : atBlank rest with
          | true =>
              have first : runs (c :: rest) = [c] :: runs rest := by simp [runs, blank, apart]
              have written : Layout (String.ofList [c] :: (runs rest).map String.ofList)
                  ([] ++ (String.ofList [c]).toList ++ rest) := .word (by simp) apart ih
              rw [first]
              simpa using written
          | false =>
              have first : runs (c :: rest) = extendFirst c (runs rest) := by
                simp [runs, blank, apart]
              obtain ⟨word, others, same, layout⟩ := ih.extend (c := c) apart
              cases found : runs rest with
              | nil => simp [found] at same
              | cons head tail =>
                  obtain ⟨rfl, rfl⟩ : String.ofList head = word ∧ tail.map String.ofList = others := by
                    simpa [found] using same
                  rw [first, found]
                  simpa [extendFirst] using layout

/-- A word that is followed by a blank, or by nothing, is the first one that is read. -/
theorem runs_word_append {word later : List Char} (solid : ∀ c ∈ word, isBlank c = false)
    (nonempty : word ≠ []) (apart : atBlank later = true) :
    runs (word ++ later) = word :: runs later := by
  induction word with
  | nil => exact absurd rfl nonempty
  | cons c rest ih =>
      obtain ⟨here, deeper⟩ := List.forall_mem_cons.1 solid
      cases rest with
      | nil => simp [runs, here, apart]
      | cons d more =>
          have inside : isBlank d = false := deeper d List.mem_cons_self
          have read : runs (d :: more ++ later) = (d :: more) :: runs later :=
            ih deeper (List.cons_ne_nil d more)
          have first : runs (c :: (d :: more ++ later)) =
              extendFirst c (runs (d :: more ++ later)) := by
            simp [runs, here, atBlank, inside]
          rw [List.cons_append, first, read]
          rfl

theorem runs_of_layout (layout : Layout ws cs) (clean : ∀ word ∈ ws, Clean word) :
    runs cs = ws.map String.toList := by
  induction layout with
  | blanks blanks => exact runs_eq_nil_of_blanks blanks
  | @word word rest blanks later blank apart _ ih =>
      obtain ⟨⟨nonempty, solid⟩, others⟩ := List.forall_mem_cons.1 clean
      have nonempty : word.toList ≠ [] := by simpa using nonempty
      rw [List.append_assoc, runs_blanks_append blank, runs_word_append solid nonempty apart, ih others]
      rfl

/-- The words of a text are laid out in it. -/
theorem layout_words (text : String) : Layout (words text) text.toList :=
  layout_runs text.toList

theorem words_clean {word : String} (mem : word ∈ words text) : Clean word := by
  obtain ⟨run, found, rfl⟩ := List.mem_map.1 mem
  obtain ⟨nonempty, solid⟩ := run_clean found
  refine ⟨?_, by simpa using solid⟩
  intro empty
  have same := congrArg String.toList empty
  exact nonempty (by simpa using same)

/-- Clean words can be read back from every layout of them, and from nothing else. -/
theorem words_eq_iff (clean : ∀ word ∈ ws, Clean word) :
    words text = ws ↔ Layout ws text.toList := by
  constructor
  · rintro rfl
    exact layout_words text
  · intro layout
    rw [words, runs_of_layout layout clean, List.map_map]
    have same : String.ofList ∘ String.toList = id := funext fun word => String.ofList_toList
    rw [same, List.map_id]

end LineShell
