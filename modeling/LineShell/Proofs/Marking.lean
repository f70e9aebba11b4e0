/-
# LineShell.Proofs.Marking -- the marker for the background, seen in the words

The marker is cut off the text of a line, and what is left is read as words.  Both can be
told from the words of the line alone: `Marked.Unmarks` takes one `&` off the end of the
last word, and drops the word if it was nothing else.  This is what happens to every line
(`Marked.ofLine_unmarks`), since a text that ends with a character that is no blank ends
with its last word (`Layout.of_concat`).

So `&` after a word, after other `&` and by itself are one case, and an operator that
comes to light when the marker is gone is an operator (`Token.ofWords_concat`).  What is
left of the words goes to the command as it is, which `Line.given` collects.

`Marked.agrees_with_words` is the statement about all lines.
-/
import LineShell.Marker
import LineShell.Proofs.Rendering
import LineShell.Proofs.Trimming

namespace LineShell

set_option autoImplicit false

/-! ## The last word -/

section LastWord

variable {ws : List String} {text later : List Char} {c : Char}

/-- What is left of a last word, if there is anything left. -/
def remnant (stem : String) : List String :=
  if stem = "" then [] else [stem]

theorem layout_remnant {blanks : List Char} (blank : ∀ c ∈ blanks, isBlank c = true) (stem : String) :
    Layout (remnant stem) (blanks ++ stem.toList) := by
  unfold remnant
  split
  · next none =>
      rw [none]
      exact .blanks (by simpa using blank)
  · have layout : Layout [stem] (blanks ++ stem.toList ++ []) := .word blank rfl (.blanks (by simp))
    rwa [List.append_nil] at layout

/-- Words that are not empty cannot be written without characters. -/
theorem Layout.of_nil (layout : Layout ws []) (nonempty : ∀ word ∈ ws, word ≠ "") : ws = [] := by
  generalize none : ([] : List Char) = text at layout
  cases layout with
  | blanks _ => rfl
  | @word word rest blanks later _ _ _ =>
      obtain ⟨some, _⟩ := List.forall_mem_cons.1 nonempty
      obtain ⟨_, empty, _⟩ : blanks = [] ∧ word = "" ∧ later = [] := by simpa using none.symm
      exact absurd empty some

/-- What is left of a word can stand in a line. -/
theorem clean_remnant {stem more : String} (clean : Clean (stem ++ more)) :
    ∀ word ∈ remnant stem, Clean word := by
  intro word mem
  unfold remnant at mem
  split at mem
  · cases mem
  · next some =>
      obtain rfl := List.mem_singleton.1 mem
      refine ⟨some, fun c inside => clean.2 c ?_⟩
      rw [String.toList_append]
      exact List.mem_append_left _ inside

theorem atBlank_of_concat (apart : atBlank (later ++ [c]) = true) : atBlank later = true := by
  cases later with
  | nil => rfl
  | cons d rest => exact apart

/-- A text that ends with a character that is no blank ends with its last word. -/
theorem Layout.of_concat (layout : Layout ws (text ++ [c])) (solid : isBlank c = false)
    (nonempty : ∀ word ∈ ws, word ≠ "") :
    ∃ front stem, ws = front ++ [stem ++ String.ofList [c]] ∧
      Layout (front ++ remnant stem) text := by
  generalize whole : text ++ [c] = cs at layout
  induction layout generalizing text with
  | blanks blank =>
      have here : isBlank c = true := blank c (whole ▸ by simp)
      rw [solid] at here
      cases here
  | @word word rest blanks later blank apart layout ih =>
      obtain ⟨some, others⟩ := List.forall_mem_cons.1 nonempty
      rcases List.eq_nil_or_concat' later with rfl | ⟨before, last, rfl⟩
      · -- The character belongs to this word, which is the last one.
        obtain rfl : rest = [] := layout.of_nil others
        obtain ⟨stem, last, spelt⟩ :=
          (List.eq_nil_or_concat' word.toList).resolve_left (by simpa using some)
        rw [spelt, List.append_nil, ← List.append_assoc] at whole
        obtain ⟨rfl, same⟩ := List.append_inj' whole rfl
        obtain rfl := List.singleton_inj.1 same
        refine ⟨[], String.ofList stem, ?_, ?_⟩
        · rw [← String.ofList_append, ← spelt, String.ofList_toList]
          rfl
        · have left := layout_remnant blank (String.ofList stem)
          rwa [String.toList_ofList] at left
      · rw [← List.append_assoc] at whole
        obtain ⟨rfl, same⟩ := List.append_inj' whole rfl
        obtain rfl := List.singleton_inj.1 same
        obtain ⟨front, stem, rfl, left⟩ := ih others rfl
        exact ⟨word :: front, stem, rfl, .word blank (atBlank_of_concat apart) left⟩

end LastWord

/-! ## The words without the marker -/

namespace Marked

/-- Whether words end with the marker, and which ones are left without it. -/
inductive Unmarks : List String → Bool → List String → Prop where
  /-- The last word ends with something else, or there is no word. -/
  | unmarked {ws : List String} :
      (∀ front stem, ws ≠ front ++ [stem ++ "&"]) → Unmarks ws false ws
  /-- The last word ends with the marker. -/
  | glued {front : List String} {stem : String} :
      stem ≠ "" → Unmarks (front ++ [stem ++ "&"]) true (front ++ [stem])
  /-- The last word is the marker. -/
  | alone {front : List String} : Unmarks (front ++ ["&"]) true front

variable {ws left other : List String} {background otherBackground : Bool}

theorem Unmarks.of_stem (front : List String) (stem : String) :
    Unmarks (front ++ [stem ++ "&"]) true (front ++ remnant stem) := by
  unfold remnant
  split
  · next none =>
      rw [none, List.append_nil]
      exact .alone
  · next some => exact .glued some

/-- The marker is found exactly when the last word ends with it. -/
theorem Unmarks.background_iff (unmarks : Unmarks ws background left) :
    background = true ↔ ∃ front stem, ws = front ++ [stem ++ "&"] := by
  cases unmarks with
  | unmarked without => exact ⟨nofun, fun ⟨front, stem, ends⟩ => absurd ends (without front stem)⟩
  | @glued front stem _ => exact ⟨fun _ => ⟨front, stem, rfl⟩, fun _ => rfl⟩
  | alone => exact ⟨fun _ => ⟨left, "", rfl⟩, fun _ => rfl⟩

theorem Unmarks.eq_of_stem {front : List String} {stem : String}
    (unmarks : Unmarks (front ++ [stem ++ "&"]) background left) :
    background = true ∧ left = front ++ remnant stem := by
  have found := unmarks.background_iff.2 ⟨front, stem, rfl⟩
  refine ⟨found, ?_⟩
  generalize ended : front ++ [stem ++ "&"] = ws at unmarks
  cases unmarks with
  | unmarked _ => cases found
  | @glued otherFront otherStem some =>
      obtain ⟨rfl, same⟩ := List.append_inj' ended rfl
      obtain rfl : stem = otherStem := (String.append_left_inj "&").1 (List.singleton_inj.1 same)
      rw [remnant, if_neg some]
  | alone =>
      obtain ⟨rfl, same⟩ := List.append_inj' ended rfl
      obtain rfl : stem = "" := (String.append_left_inj "&").1 (List.singleton_inj.1 same)
      exact (List.append_nil front).symm

/-- Words without their marker are determined. -/
theorem Unmarks.unique (unmarks : Unmarks ws background left)
    (also : Unmarks ws otherBackground other) : background = otherBackground ∧ left = other := by
  cases found : background with
  | true =>
      obtain ⟨front, stem, rfl⟩ := unmarks.background_iff.1 found
      obtain ⟨rfl, rfl⟩ := also.eq_of_stem
      exact ⟨rfl, unmarks.eq_of_stem.2⟩
  | false =>
      have without : ¬ ∃ front stem, ws = front ++ [stem ++ "&"] := by
        rw [← unmarks.background_iff, found]
        exact Bool.false_ne_true
      have notFound : otherBackground = false := by
        rwa [← also.background_iff, Bool.not_eq_true] at without
      subst found notFound
      cases unmarks
      cases also
      exact ⟨rfl, rfl⟩

/-- The words of a text with the marker at its end. -/
theorem unmarks_of_marker {text : List Char} (layout : Layout ws (text ++ ['&']))
    (clean : ∀ word ∈ ws, Clean word) : Unmarks ws true (words (String.ofList text)) := by
  obtain ⟨front, stem, rfl, rest⟩ := layout.of_concat rfl fun word mem => (clean word mem).1
  obtain ⟨cleanFront, cleanLast⟩ := List.forall_mem_append.1 clean
  have stays : ∀ word ∈ front ++ remnant stem, Clean word :=
    List.forall_mem_append.2 ⟨cleanFront, clean_remnant (cleanLast _ List.mem_cons_self)⟩
  have left : words (String.ofList text) = front ++ remnant stem :=
    (words_eq_iff stays).2 (by simpa using rest)
  rw [left]
  exact .of_stem front stem

/-- The words of a text that ends with something else. -/
theorem unmarks_of_other {text : List Char} (layout : Layout ws text)
    (nonempty : ∀ word ∈ ws, word ≠ "") (solid : ∀ c ∈ text.getLast?, isBlank c = false)
    (other : text.getLast? ≠ some '&') : Unmarks ws false ws := by
  refine .unmarked fun front stem ended => other ?_
  rcases List.eq_nil_or_concat' text with rfl | ⟨init, c, rfl⟩
  · rw [layout.of_nil nonempty] at ended
    simp at ended
  · obtain ⟨otherFront, otherStem, also, _⟩ := layout.of_concat (solid c (by simp)) nonempty
    rw [ended] at also
    have lasts := congrArg String.toList (List.singleton_inj.1 (List.append_inj' also rfl).2)
    rw [String.toList_append, String.toList_append, String.toList_ofList,
      show (String.ofList [c]).toList = [c] from String.toList_ofList] at lasts
    have same : ['&'] = [c] := (List.append_inj' lasts rfl).2
    rw [List.getLast?_concat, List.singleton_inj.1 same]

/-- The marker is cut off a text as it is taken off the words. -/
theorem ofLine_unmarks (line : String) :
    Unmarks (words line) (ofLine line).background (words (ofLine line).rest) := by
  obtain ⟨after, split, blank⟩ := exists_dropTrailing isBlank line.toList
  have sameRuns : runs line.toList = runs (dropTrailing isBlank line.toList) := by
    conv_lhs => rw [split]
    exact runs_append_blanks blank _
  have solid : ∀ c ∈ (dropTrailing isBlank line.toList).getLast?, isBlank c = false :=
    fun c last => last_dropTrailing last
  unfold ofLine
  generalize dropTrailing isBlank line.toList = text at sameRuns solid
  have same : words line = words (String.ofList text) := by
    rw [words, words, sameRuns, String.toList_ofList]
  have layout : Layout (words line) text := by
    rw [same]
    simpa using layout_words (String.ofList text)
  have clean : ∀ word ∈ words line, Clean word := fun word mem => words_clean mem
  unfold ofTrimmed
  split
  · next marker =>
      obtain ⟨init, rfl⟩ := List.getLast?_eq_some_iff.1 marker
      simp only [List.dropLast_concat]
      exact unmarks_of_marker layout clean
  · next other =>
      simp only [← same]
      exact unmarks_of_other layout (fun word mem => (clean word mem).1) solid other

/-- Lines with the same words have the same marker and are left with the same words. -/
theorem ofLine_congr {line otherLine : String} (same : words line = words otherLine) :
    (ofLine line).background = (ofLine otherLine).background ∧
      words (ofLine line).rest = words (ofLine otherLine).rest := by
  have unmarks := ofLine_unmarks line
  rw [same] at unmarks
  exact unmarks.unique (ofLine_unmarks otherLine)

/-- The marker is the last character of the words, and no other one is taken. -/
theorem Unmarks.characters (unmarks : Unmarks ws background left) :
    ws.flatMap String.toList = left.flatMap String.toList ++ if background then ['&'] else [] := by
  cases unmarks with
  | unmarked _ => simp
  | glued _ => simp
  | alone => simp

end Marked

/-! ## An operator at the end -/

/-- What an operator at the end of a line makes of the tokens before it. -/
def Operator.ending (operator : Operator) (tokens : List Token) : Except ParseError (List Token) :=
  match operator with
  | .redirect direction => .error (.missingTarget direction)
  | .pipe => .ok (tokens ++ [.pipe])

theorem Operator.map_bind_ending (operator : Operator) (token : Token)
    (read : Except ParseError (List Token)) :
    read.map (token :: ·) >>= operator.ending = (read >>= operator.ending).map (token :: ·) := by
  cases read with
  | error error => rfl
  | ok tokens => cases operator <;> rfl

/-- An operator at the end is one after everything before it was classified. -/
theorem Token.ofWords_concat (front : List String) (operator : Operator) :
    ofWords (front ++ [operator.spelling]) = ofWords front >>= operator.ending := by
  fun_induction ofWords front with
  | case1 =>
      cases operator with
      | redirect direction => cases direction <;> rfl
      | pipe => rfl
  | case2 first rest plain ih =>
      rw [operator.map_bind_ending, ← ih]
      simp [ofWords, plain]
  | case3 first rest bar ih =>
      rw [operator.map_bind_ending, ← ih]
      simp [ofWords, bar]
  | case4 first direction arrow =>
      have taken : (Operator.ofWord? operator.spelling).isSome = true := by simp
      simp [ofWords, arrow, bind, Except.bind]
  | case5 first direction arrow target later taken =>
      simp [ofWords, arrow, taken, bind, Except.bind]
  | case6 first direction arrow target later plain ih =>
      rw [operator.map_bind_ending, ← ih]
      simp [ofWords, arrow, plain]

/-! ## The words that are handed on -/

/-- What a line hands on, in bytes: the words of its commands and the names of its files. -/
def Line.given (line : Line) : List Bytes :=
  line.texts.map Bytes.ofText ++ line.files.map fun file => file.2.bytes

/-- The word is no operator. -/
def isOrdinary (word : String) : Bool :=
  (Operator.ofWord? word).isNone

namespace Token

/-- The word that a token hands on, if there is one. -/
def given? : Token → Option String
  | .word text => some text
  | .redirect _ target => some target
  | .pipe => none

/-- The word of a token that is one. -/
def text? : Token → Option String
  | .word text => some text
  | .redirect _ _ => none
  | .pipe => none

variable {tokens : List Token}

/-- The words that are no operators are those of the tokens. -/
theorem ordinary_spelling (readable : ∀ token ∈ tokens, token.Readable) :
    (tokens.flatMap spelling).filter isOrdinary = tokens.filterMap given? := by
  induction tokens with
  | nil => rfl
  | cons token rest ih =>
      obtain ⟨here, later⟩ := List.forall_mem_cons.1 readable
      rw [List.flatMap_cons, List.filter_append, ih later, List.filterMap_cons]
      cases token with
      | word text =>
          have plain : Operator.ofWord? text = none := here
          simp [spelling, isOrdinary, given?, plain]
      | redirect direction target =>
          have plain : Operator.ofWord? target = none := here
          have arrow : Operator.ofWord? direction.operator = some (.redirect direction) :=
            Operator.ofWord?_spelling (.redirect direction)
          simp [spelling, isOrdinary, given?, plain, arrow]
      | pipe =>
          have bar : Operator.ofWord? "|" = some .pipe := rfl
          simp [spelling, isOrdinary, given?, bar]

/-- What tokens hand on are their words and their files. -/
theorem given_perm (tokens : List Token) :
    ((tokens.filterMap given?).map Bytes.ofText).Perm
      (((tokens.filter isPlain).filterMap text?).map Bytes.ofText ++
        (tokens.filterMap file?).map fun file => file.2.bytes) := by
  induction tokens with
  | nil => exact .refl _
  | cons token rest ih =>
      cases token with
      | word text => exact ih.cons (Bytes.ofText text)
      | redirect direction target =>
          exact (ih.cons (Bytes.ofText target)).trans List.perm_middle.symm
      | pipe => exact ih

end Token

namespace Line

theorem filterMap_text (texts : List String) :
    (texts.map Token.word).filterMap Token.text? = texts := by
  rw [List.filterMap_map]
  exact List.filterMap_some

theorem text_skeleton (line : Line) : line.skeleton.filterMap Token.text? = line.texts := by
  cases line with
  | simple command => exact filterMap_text command.tokens
  | pipe left right =>
      have right_texts : (Token.pipe :: right.tokens.map Token.word).filterMap Token.text? = right.tokens :=
        filterMap_text right.tokens
      rw [skeleton, texts, List.filterMap_append, filterMap_text, right_texts]

/-- The words of a line that are no operators are handed on as they stand, and nothing else is. -/
theorem given_of_parse {text : String} {line : Line} (parsed : parse text = .ok line) :
    (((words text).filter isOrdinary).map Bytes.ofText).Perm line.given := by
  unfold parse at parsed
  obtain ⟨tokens, read, made⟩ := bind_eq_ok_iff.1 parsed
  obtain ⟨spelt, readable⟩ := Token.ofWords_eq_ok_iff.1 read
  obtain ⟨_, rendered⟩ := ofTokens_eq_ok_iff.1 made
  rw [← spelt, Token.ordinary_spelling readable]
  refine (Token.given_perm tokens).trans ?_
  rw [rendered.skeleton, text_skeleton]
  exact (rendered.files.map _).append_left _

end Line

/-! ## Every line -/

namespace Marked

/-- What is left of a line has to do with the words of the line in this way. -/
structure Agrees (line : String) (marked : Marked) : Prop where
  /-- The marker is there exactly when the last word ends with it. -/
  background : marked.background = true ↔ ∃ front stem, words line = front ++ [stem ++ "&"]
  /-- The words of the line tell which words are left. -/
  left : ∀ background left, Unmarks (words line) background left ↔
    background = marked.background ∧ left = words marked.rest
  /-- What is left is parsed from these words alone. -/
  parsed : ∀ background left, Unmarks (words line) background left →
    Line.parse marked.rest = Token.ofWords left >>= Line.ofTokens
  /-- One `&` is taken, the very last one, and no other character. -/
  single : (words line).flatMap String.toList =
    (words marked.rest).flatMap String.toList ++ if marked.background then ['&'] else []
  /-- What is left and is no operator is handed on as it stands. -/
  given : ∀ parsed, Line.parse marked.rest = .ok parsed →
    (((words marked.rest).filter isOrdinary).map Bytes.ofText).Perm parsed.given
  /-- A word with another `&` is no operator. -/
  verbatim : ∀ word ∈ words marked.rest, '&' ∈ word.toList → isOrdinary word = true
  /-- What is an operator without the marker is classified as one. -/
  operator : ∀ front operator, words line = front ++ [Operator.spelling operator ++ "&"] →
    marked.background = true ∧ words marked.rest = front ++ [operator.spelling] ∧
      Token.ofLine marked.rest = Token.ofWords front >>= operator.ending

theorem ordinary_of_marker {word : String} (inside : '&' ∈ word.toList) : isOrdinary word = true := by
  unfold isOrdinary
  rw [Option.isNone_iff_eq_none, Operator.ofWord?_eq_none_iff]
  refine ⟨?_, ?_, ?_⟩ <;>
    · rintro rfl
      revert inside
      decide

/-- The marker that is cut off the text of a line is the one at the end of its words. -/
theorem agrees_with_words (line : String) : Agrees line (ofLine line) := by
  have unmarks := ofLine_unmarks line
  have left (background : Bool) (left : List String) : Unmarks (words line) background left ↔
      background = (ofLine line).background ∧ left = words (ofLine line).rest := by
    constructor
    · exact fun also => also.unique unmarks
    · rintro ⟨rfl, rfl⟩
      exact unmarks
  refine ⟨unmarks.background_iff, left, ?_, unmarks.characters,
    fun parsed made => Line.given_of_parse made, fun word _ inside => ordinary_of_marker inside, ?_⟩
  · intro background others also
    rw [((left background others).1 also).2]
    rfl
  · intro front operator ended
    rw [ended] at unmarks
    obtain ⟨found, rest⟩ := unmarks.eq_of_stem
    have some : operator.spelling ≠ "" := operator.spelling_clean.1
    rw [remnant, if_neg some] at rest
    refine ⟨found, rest, ?_⟩
    rw [Token.ofLine, rest]
    exact Token.ofWords_concat front operator

example : (ofLine " sort >&\u2003").background = true ∧
    Line.parse (ofLine " sort >&\u2003").rest = .error (.missingTarget .output) := by
  decide +kernel

end Marked

end LineShell
