/-
# LineShell.Blank -- blank characters, trimming, and the words of a line

A character is blank when it has the Unicode property White_Space.  A line is
read as its *words*, the maximal runs of characters that are not blank; leading,
trailing and repeated blanks mean nothing.

`runs` computes the words of a list of characters by structural recursion, so
closed instances evaluate in the kernel.  `run_clean` says that no word is empty
or holds a blank, `runs_append_blanks` and `runs_blanks_append` that blanks
around a text change nothing.
-/

namespace LineShell

set_option autoImplicit false

/-- The characters with the Unicode property White_Space. -/
def isBlank (c : Char) : Bool :=
  (0x09 ≤ c.val && c.val ≤ 0x0D) || c.val = 0x20 || c.val = 0x85 || c.val = 0xA0 ||
  c.val = 0x1680 || (0x2000 ≤ c.val && c.val ≤ 0x200A) || c.val = 0x2028 || c.val = 0x2029 ||
  c.val = 0x202F || c.val = 0x205F || c.val = 0x3000

/-! ## Trimming -/

/-- Drop the leading blanks. -/
def dropBlanks (cs : List Char) : List Char :=
  cs.dropWhile isBlank

/-- Drop the trailing elements that satisfy `p`. -/
def dropTrailing (p : Char → Bool) (cs : List Char) : List Char :=
  (cs.reverse.dropWhile p).reverse

/-- Drop the blanks at both ends. -/
def strip (cs : List Char) : List Char :=
  dropTrailing isBlank (dropBlanks cs)

/-! ## Words -/

/-- Whether the first word, if there is one, does not begin right here. -/
def atBlank : List Char → Bool
  | [] => true
  | c :: _ => isBlank c

/-- Put a character in front of the first word. -/
def extendFirst (c : Char) : List (List Char) → List (List Char)
  | [] => [[c]]
  | word :: words => (c :: word) :: words

/-- The maximal runs of characters that are not blank, in order. -/
def runs : List Char → List (List Char)
  | [] => []
  | c :: cs =>
      if isBlank c then runs cs
      else if atBlank cs then [c] :: runs cs
      else extendFirst c (runs cs)

/-- The words of a text. -/
def words (text : String) : List String :=
  (runs text.toList).map String.ofList

/-! ## Laws -/

theorem runs_blank_cons {c : Char} (blank : isBlank c = true) (cs : List Char) :
    runs (c :: cs) = runs cs := by
  simp [runs, blank]

theorem runs_blanks_append {blanks : List Char} (blank : ∀ c ∈ blanks, isBlank c = true)
    (cs : List Char) : runs (blanks ++ cs) = runs cs := by
  induction blanks with
  | nil => rfl
  | cons c rest ih =>
      rw [List.cons_append, runs_blank_cons (blank c (by simp))]
      exact ih fun d hd => blank d (by simp [hd])

theorem runs_eq_nil_of_blanks {blanks : List Char} (blank : ∀ c ∈ blanks, isBlank c = true) :
    runs blanks = [] := by
  simpa [runs] using runs_blanks_append blank []

theorem atBlank_append_blanks {blanks : List Char} (blank : ∀ c ∈ blanks, isBlank c = true)
    (cs : List Char) : atBlank (cs ++ blanks) = atBlank cs := by
  cases cs with
  | cons c rest => rfl
  | nil =>
      cases blanks with
      | nil => rfl
      | cons c rest => simp [atBlank, blank c (by simp)]

theorem runs_append_blanks {blanks : List Char} (blank : ∀ c ∈ blanks, isBlank c = true)
    (cs : List Char) : runs (cs ++ blanks) = runs cs := by
  induction cs with
  | nil => simpa [runs] using runs_eq_nil_of_blanks blank
  | cons c rest ih => simp [runs, ih, atBlank_append_blanks blank]

theorem runs_ne_nil_of_not_atBlank {cs : List Char} (inside : atBlank cs = false) :
    runs cs ≠ [] := by
  cases cs with
  | nil => simp [atBlank] at inside
  | cons c rest =>
      have word : isBlank c = false := inside
      simp only [runs, word]
      cases atBlank rest <;> cases runs rest <;> simp [extendFirst]

/-- A word is not empty and holds no blank. -/
theorem run_clean {cs word : List Char} (mem : word ∈ runs cs) :
    word ≠ [] ∧ ∀ c ∈ word, isBlank c = false := by
  induction cs generalizing word with
  | nil => simp [runs] at mem
  | cons c rest ih =>
      simp only [runs] at mem
      split at mem
      · exact ih mem
      · rename_i solid
        have solid : isBlank c = false := by simpa using solid
        split at mem
        · rcases List.mem_cons.1 mem with rfl | later
          · simp [solid]
          · exact ih later
        · cases first : runs rest with
          | nil =>
              rw [first] at mem
              obtain rfl : word = [c] := by simpa [extendFirst] using mem
              simp [solid]
          | cons head tail =>
              rw [first] at mem
              rcases List.mem_cons.1 mem with rfl | later
              · refine ⟨by simp, fun d hd => ?_⟩
                rcases List.mem_cons.1 hd with rfl | deep
                · exact solid
                · exact (ih (by simp [first])).2 d deep
              · exact ih (by simp [first, later])

end LineShell
