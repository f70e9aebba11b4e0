/-
# LineShell.Proofs.Faults -- which error a line is refused with

The words of a line are looked at as they are, without tokens or drafts.  A line can
have several faults at once, and `Fault` says which one counts:

* a `<` or `>` that no file name follows, the leftmost one if there are several,
  whatever else is wrong;
* no words at all;
* an operator that is there for the second time, whichever comes first;
* a command without a name.

`Line.parse_classified` says that a line is refused with this error, and that it is
accepted when there is no fault.
-/
import LineShell.Proofs.Layout
import LineShell.Proofs.Reading

namespace LineShell

set_option autoImplicit false

/-! ## Faults of words -/

/-- It holds of the value at some place, and of nothing at an earlier one. -/
def First {β : Type} (holds : Nat → β → Prop) (value : β) : Prop :=
  ∃ place, holds place value ∧ ∀ earlier < place, ∀ other, ¬ holds earlier other

/-- A redirection at a place has no file name. -/
def BareAt (ws : List String) (place : Nat) (direction : Direction) : Prop :=
  ws[place]? = some direction.operator ∧ ¬ ∃ target, ws[place + 1]? = some target ∧ Ordinary target

/-- The operator at a place was there before. -/
def RepeatAt (ws : List String) (place : Nat) (operator : Operator) : Prop :=
  ws[place]? = some operator.spelling ∧ operator.spelling ∈ ws.take place

/-- What is left of the words without the redirections and their file names. -/
def withoutPairs : List String → List String
  | [] => []
  | first :: rest =>
      if first = "<" ∨ first = ">" then
        match rest with
        | [] => []
        | _ :: later => withoutPairs later
      else first :: withoutPairs rest

/-- Nothing is left on some side of the bar, or anywhere if there is no bar. -/
def Lacking (left : List String) : Prop :=
  left = [] ∨ ∃ before after, left = before ++ "|" :: after ∧ (before = [] ∨ after = [])

/-- The fault of a line that counts. -/
inductive Fault (ws : List String) : ParseError → Prop where
  | missingTarget {direction : Direction} :
      First (BareAt ws) direction → Fault ws (.missingTarget direction)
  | empty : ws = [] → Fault ws .empty
  | repeated {operator : Operator} : (∀ place direction, ¬ BareAt ws place direction) →
      First (RepeatAt ws) operator → Fault ws operator.repetition
  | missingCommand : (∀ place direction, ¬ BareAt ws place direction) → ws ≠ [] →
      (∀ place operator, ¬ RepeatAt ws place operator) → Lacking (withoutPairs ws) →
      Fault ws .missingCommand

/-- There is no fault. -/
structure Faultless (ws : List String) : Prop where
  targets : ∀ place direction, ¬ BareAt ws place direction
  nonempty : ws ≠ []
  single : ∀ place operator, ¬ RepeatAt ws place operator
  complete : ¬ Lacking (withoutPairs ws)

section Places

variable {β : Type} {holds : Nat → β → Prop} {value other : β}

theorem First.unique (first : First holds value) (also : First holds other)
    (functional : ∀ place one two, holds place one → holds place two → one = two) :
    value = other := by
  obtain ⟨place, here, before⟩ := first
  obtain ⟨otherPlace, there, beforeOther⟩ := also
  have same : place = otherPlace := by
    rcases Nat.lt_trichotomy place otherPlace with less | same | more
    · exact absurd here (beforeOther place less value)
    · exact same
    · exact absurd there (before otherPlace more other)
  subst same
  exact functional place value other here there

/-- Nothing at the first place moves the search to the next one. -/
theorem First.succ (none : ∀ other, ¬ holds 0 other)
    (first : First (fun place => holds (place + 1)) value) : First holds value := by
  obtain ⟨place, here, before⟩ := first
  refine ⟨place + 1, here, fun earlier less => ?_⟩
  cases earlier with
  | zero => exact none
  | succ earlier => exact before earlier (Nat.lt_of_succ_lt_succ less)

end Places

variable {ws rest : List String} {first target : String} {place : Nat}

theorem BareAt.functional {direction other : Direction} (bare : BareAt ws place direction)
    (also : BareAt ws place other) : direction = other := by
  have spelt : direction.operator = other.operator := Option.some.inj (bare.1.symm.trans also.1)
  cases direction <;> cases other <;> simp_all [Direction.operator]

theorem RepeatAt.functional {operator other : Operator} (repeated : RepeatAt ws place operator)
    (also : RepeatAt ws place other) : operator = other := by
  have spelt : operator.spelling = other.spelling :=
    Option.some.inj (repeated.1.symm.trans also.1)
  have read := Operator.ofWord?_spelling operator
  rw [spelt, Operator.ofWord?_spelling] at read
  exact (Option.some.inj read).symm

/-! ## Redirections without a file name -/

theorem not_bareAt_zero (free : ∀ direction, Operator.ofWord? first ≠ some (.redirect direction))
    (direction : Direction) : ¬ BareAt (first :: rest) 0 direction := by
  rintro ⟨here, _⟩
  have spelt : first = (Operator.redirect direction).spelling := Option.some.inj here
  exact free direction (spelt ▸ Operator.ofWord?_spelling (.redirect direction))

theorem not_bareAt_of_target (plain : Operator.ofWord? target = none) (direction : Direction) :
    ¬ BareAt (first :: target :: rest) 0 direction := by
  rintro ⟨_, missing⟩
  exact missing ⟨target, rfl, Operator.ofWord?_eq_none_iff.1 plain⟩

/-- Classifying fails at the leftmost redirection without a file name. -/
theorem first_bareAt_of_error {error : ParseError} (refused : Token.ofWords ws = .error error) :
    ∃ direction, error = .missingTarget direction ∧ First (BareAt ws) direction := by
  fun_induction Token.ofWords ws with
  | case1 => simp at refused
  | case2 first rest plain ih =>
      obtain ⟨direction, rfl, bare⟩ := ih (map_eq_error_iff.1 refused)
      exact ⟨direction, rfl, bare.succ (not_bareAt_zero (by simp [plain]))⟩
  | case3 first rest bar ih =>
      obtain ⟨direction, rfl, bare⟩ := ih (map_eq_error_iff.1 refused)
      exact ⟨direction, rfl, bare.succ (not_bareAt_zero (by simp [bar]))⟩
  | case4 first direction arrow =>
      have spelt : direction.operator = first := Operator.spelling_of_ofWord? arrow
      exact ⟨direction, (Except.error.inj refused).symm, 0, ⟨by simp [spelt], by simp⟩, by simp⟩
  | case5 first direction arrow target later operator =>
      have spelt : direction.operator = first := Operator.spelling_of_ofWord? arrow
      refine ⟨direction, (Except.error.inj refused).symm, 0, ⟨by simp [spelt], ?_⟩, by simp⟩
      rintro ⟨next, found, ordinary⟩
      obtain rfl : target = next := by simpa using found
      simp [Operator.ofWord?_eq_none_iff.2 ordinary] at operator
  | case6 first direction arrow target later plain ih =>
      have plain : Operator.ofWord? target = none := by simpa using plain
      obtain ⟨found, rfl, bare⟩ := ih (map_eq_error_iff.1 refused)
      have moved : First (BareAt (target :: later)) found :=
        bare.succ (not_bareAt_zero (by simp [plain]))
      exact ⟨found, rfl, moved.succ (not_bareAt_of_target plain)⟩

theorem not_bareAt_of_ok {tokens : List Token} (read : Token.ofWords ws = .ok tokens) (place : Nat)
    (direction : Direction) : ¬ BareAt ws place direction := by
  fun_induction Token.ofWords ws generalizing tokens place with
  | case1 => simp [BareAt]
  | case2 first rest plain ih =>
      obtain ⟨later, inner, _⟩ := map_eq_ok_iff.1 read
      cases place with
      | zero => exact not_bareAt_zero (by simp [plain]) direction
      | succ place => exact ih inner place
  | case3 first rest bar ih =>
      obtain ⟨later, inner, _⟩ := map_eq_ok_iff.1 read
      cases place with
      | zero => exact not_bareAt_zero (by simp [bar]) direction
      | succ place => exact ih inner place
  | case4 first direction arrow => simp at read
  | case5 first direction arrow target later operator => simp at read
  | case6 first direction arrow target later plain ih =>
      have plain : Operator.ofWord? target = none := by simpa using plain
      obtain ⟨others, inner, _⟩ := map_eq_ok_iff.1 read
      cases place with
      | zero => exact not_bareAt_of_target plain _
      | succ place =>
          cases place with
          | zero => exact not_bareAt_zero (by simp [plain]) _
          | succ place => exact ih inner place

/-! ## Operators that are there twice -/

section Repeats

variable {tokens : List Token} {token : Token} {operator : Operator}

/-- The operators among the words are those of the tokens. -/
theorem filterMap_spelling (readable : ∀ token ∈ tokens, token.Readable) :
    (tokens.flatMap Token.spelling).filterMap Operator.ofWord? = tokens.filterMap Token.operator? := by
  induction tokens with
  | nil => rfl
  | cons token rest ih =>
      obtain ⟨here, later⟩ := List.forall_mem_cons.1 readable
      rw [List.flatMap_cons, List.filterMap_append, ih later, List.filterMap_cons]
      cases token with
      | word text =>
          have plain : Operator.ofWord? text = none := here
          simp [Token.spelling, Token.operator?, plain]
      | redirect direction target =>
          have plain : Operator.ofWord? target = none := here
          have arrow : Operator.ofWord? direction.operator = some (.redirect direction) :=
            Operator.ofWord?_spelling (.redirect direction)
          simp [Token.spelling, Token.operator?, plain, arrow]
      | pipe =>
          have bar : Operator.ofWord? "|" = some .pipe := rfl
          simp [Token.spelling, Token.operator?, bar]

/-- A token with an operator is spelled with it first. -/
theorem spelling_of_operator (is : token.operator? = some operator) :
    ∃ more, token.spelling = operator.spelling :: more := by
  cases token with
  | word text => simp [Token.operator?] at is
  | redirect direction target =>
      obtain rfl := Option.some.inj is
      exact ⟨[target], rfl⟩
  | pipe =>
      obtain rfl := Option.some.inj is
      exact ⟨[], rfl⟩

/-- Where an operator is repeated the operators are not distinct. -/
theorem RepeatAt.not_nodup (repeated : RepeatAt ws place operator) :
    ¬ (ws.filterMap Operator.ofWord?).Nodup := by
  obtain ⟨here, before⟩ := repeated
  obtain ⟨inside, at_place⟩ := List.getElem?_eq_some_iff.1 here
  intro distinct
  have split : ws = ws.take place ++ operator.spelling :: ws.drop (place + 1) := by
    rw [← at_place, List.getElem_cons_drop, List.take_append_drop]
  have again : operator ∈ (ws.take place).filterMap Operator.ofWord? :=
    List.mem_filterMap.2 ⟨_, before, Operator.ofWord?_spelling operator⟩
  rw [split, List.filterMap_append, List.filterMap_cons, Operator.ofWord?_spelling] at distinct
  exact (List.nodup_append.1 distinct).2.2 operator again operator List.mem_cons_self rfl

/-- An operator that is there before, behind distinct ones, is the first that is repeated. -/
theorem first_repeatAt {before after : List String}
    (old : operator ∈ before.filterMap Operator.ofWord?)
    (distinct : (before.filterMap Operator.ofWord?).Nodup) :
    First (RepeatAt (before ++ operator.spelling :: after)) operator := by
  obtain ⟨word, mem, read⟩ := List.mem_filterMap.1 old
  obtain rfl : operator.spelling = word := Operator.spelling_of_ofWord? read
  refine ⟨before.length, ⟨by simp, by simpa using mem⟩, ?_⟩
  intro earlier less other repeated
  have within : RepeatAt before earlier other := by
    obtain ⟨here, seen⟩ := repeated
    rw [List.getElem?_append_left less] at here
    rw [List.take_append_of_le_length (Nat.le_of_lt less)] at seen
    exact ⟨here, seen⟩
  exact within.not_nodup distinct

/-- Reading fails at the first operator that is repeated. -/
theorem first_repeatAt_of_error (readable : ∀ token ∈ tokens, token.Readable) {error : ParseError}
    (refused : tokens.foldlM Line.Draft.add Line.Draft.empty = .error error) :
    ∃ operator, error = operator.repetition ∧
      First (RepeatAt (tokens.flatMap Token.spelling)) operator := by
  obtain ⟨before, token, after, operator, split, is, old, distinct, rfl⟩ :=
    Line.Draft.empty_holds.foldlM_error (by simp) refused
  obtain rfl : tokens = before ++ token :: after := by simpa using split
  have readableBefore : ∀ token ∈ before, token.Readable :=
    fun token mem => readable token (List.mem_append_left _ mem)
  rw [← filterMap_spelling readableBefore] at old distinct
  obtain ⟨more, spelt⟩ := spelling_of_operator is
  have words : (before ++ token :: after).flatMap Token.spelling =
      before.flatMap Token.spelling ++
        operator.spelling :: (more ++ after.flatMap Token.spelling) := by
    simp [spelt]
  rw [words]
  exact ⟨operator, rfl, first_repeatAt old distinct⟩

end Repeats

/-! ## Commands without a name -/

section Commands

variable {tokens : List Token} {draft : Line.Draft}

theorem withoutPairs_cons (notInput : first ≠ "<") (notOutput : first ≠ ">") :
    withoutPairs (first :: rest) = first :: withoutPairs rest := by
  rw [withoutPairs.eq_def]
  exact if_neg (by simp [notInput, notOutput])

theorem withoutPairs_pair (direction : Direction) (target : String) (rest : List String) :
    withoutPairs (direction.operator :: target :: rest) = withoutPairs rest := by
  cases direction <;> simp [withoutPairs, Direction.operator]

theorem withoutPairs_spelling (readable : ∀ token ∈ tokens, token.Readable) :
    withoutPairs (tokens.flatMap Token.spelling) =
      (tokens.filter Token.isPlain).flatMap Token.spelling := by
  induction tokens with
  | nil => rfl
  | cons token rest ih =>
      obtain ⟨here, later⟩ := List.forall_mem_cons.1 readable
      have ih := ih later
      cases token with
      | word text =>
          obtain ⟨notInput, notOutput, _⟩ := Operator.ofWord?_eq_none_iff.1 here
          have kept : (Token.word text :: rest).filter Token.isPlain =
              .word text :: rest.filter Token.isPlain := rfl
          rw [kept, List.flatMap_cons, List.flatMap_cons, ← ih]
          exact withoutPairs_cons notInput notOutput
      | redirect direction target =>
          have gone : (Token.redirect direction target :: rest).filter Token.isPlain =
              rest.filter Token.isPlain := rfl
          rw [gone, List.flatMap_cons, ← ih]
          exact withoutPairs_pair direction target _
      | pipe =>
          have kept : (Token.pipe :: rest).filter Token.isPlain =
              .pipe :: rest.filter Token.isPlain := rfl
          rw [kept, List.flatMap_cons, List.flatMap_cons, ← ih]
          exact withoutPairs_cons (by decide) (by decide)

/-- What is left of the words are the stages of the draft. -/
theorem withoutPairs_of_holds (readable : ∀ token ∈ tokens, token.Readable)
    (holds : draft.Holds tokens) :
    withoutPairs (tokens.flatMap Token.spelling) =
      draft.first ++
        match draft.second with
        | none => []
        | some stage => "|" :: stage := by
  have spelt (stage : List String) : (stage.map Token.word).flatMap Token.spelling = stage := by
    induction stage with
    | nil => rfl
    | cons word rest ih => simpa [Token.spelling] using ih
  rw [withoutPairs_spelling readable, ← holds.skeleton, Line.Draft.skeleton, List.flatMap_append, spelt]
  cases draft.second with
  | none => rfl
  | some stage => simp [Token.spelling, spelt]

/-- No stage holds a bar. -/
theorem no_bar_of_holds (readable : ∀ token ∈ tokens, token.Readable) (holds : draft.Holds tokens) :
    "|" ∉ draft.first ∧ ∀ stage, draft.second = some stage → "|" ∉ stage := by
  have absent : Token.word "|" ∉ draft.skeleton := by
    rw [holds.skeleton]
    intro mem
    have ordinary := Operator.ofWord?_eq_none_iff.1 (readable _ (List.mem_filter.1 mem).1)
    exact ordinary.2.2 rfl
  constructor
  · intro mem
    exact absent (List.mem_append_left _ (List.mem_map_of_mem mem))
  · intro stage second mem
    refine absent (List.mem_append_right _ ?_)
    rw [second]
    exact List.mem_cons_of_mem _ (List.mem_map_of_mem mem)

/-- Something is lacking exactly when a stage is empty. -/
theorem lacking_iff (readable : ∀ token ∈ tokens, token.Readable) (holds : draft.Holds tokens) :
    Lacking (withoutPairs (tokens.flatMap Token.spelling)) ↔
      draft.first = [] ∨ draft.second = some [] := by
  obtain ⟨noBar, noBarLater⟩ := no_bar_of_holds readable holds
  rw [withoutPairs_of_holds readable holds]
  cases second : draft.second with
  | none =>
      have single : ∀ before after, draft.first ≠ before ++ "|" :: after := by
        intro before after same
        exact noBar (same ▸ by simp)
      simp [Lacking, single]
  | some stage =>
      have parts : ∀ before after, draft.first ++ "|" :: stage = before ++ "|" :: after ↔
          draft.first = before ∧ stage = after := by
        intro before after
        rw [List.append_cons_inj_of_notMem noBar (noBarLater stage second)]
        simp
      constructor
      · rintro (none | ⟨before, after, same, empty⟩)
        · simp at none
        · obtain ⟨rfl, rfl⟩ := (parts before after).1 same
          simpa using empty
      · intro empty
        exact .inr ⟨draft.first, stage, rfl, by simpa using empty⟩

end Commands

/-! ## Every line is classified -/

section Classified

variable {tokens : List Token} {draft : Line.Draft} {text : String} {error : ParseError}

theorem spelling_ne_nil (some : tokens ≠ []) : tokens.flatMap Token.spelling ≠ [] := by
  cases tokens with
  | nil => exact absurd rfl some
  | cons token rest => cases token <;> simp [Token.spelling]

/-- What is known of the words once the draft is complete. -/
theorem faults_of_draft (read : Token.ofWords ws = .ok tokens) (some : tokens ≠ [])
    (accepted : tokens.foldlM Line.Draft.add Line.Draft.empty = .ok draft) :
    ws ≠ [] ∧ (∀ place operator, ¬ RepeatAt ws place operator) ∧
      (Lacking (withoutPairs ws) ↔ draft.first = [] ∨ draft.second = Option.some []) := by
  obtain ⟨rfl, readable⟩ := Token.ofWords_eq_ok_iff.1 read
  obtain ⟨holds, distinct⟩ := Line.Draft.empty_holds.foldlM_ok (by simp) accepted
  refine ⟨spelling_ne_nil some, fun place operator repeated => ?_, lacking_iff readable holds⟩
  have operators : (tokens.filterMap Token.operator?).Nodup := distinct
  rw [← filterMap_spelling readable] at operators
  exact repeated.not_nodup operators

/-- A line that is refused has the fault that it is refused for. -/
theorem Line.fault_of_error (refused : parse text = .error error) : Fault (words text) error := by
  unfold parse Token.ofLine at refused
  rcases bind_eq_error_iff.1 refused with refused | ⟨tokens, read, refused⟩
  · obtain ⟨direction, rfl, bare⟩ := first_bareAt_of_error refused
    exact .missingTarget bare
  · have bare := not_bareAt_of_ok read
    obtain ⟨spelt, readable⟩ := Token.ofWords_eq_ok_iff.1 read
    unfold ofTokens at refused
    split at refused
    · next none =>
        obtain rfl : ParseError.empty = error := Except.error.inj refused
        obtain rfl : tokens = [] := List.isEmpty_iff.1 none
        exact .empty spelt.symm
    · next some =>
        rcases bind_eq_error_iff.1 refused with refused | ⟨draft, accepted, refused⟩
        · obtain ⟨operator, rfl, repeated⟩ := first_repeatAt_of_error readable refused
          exact .repeated bare (spelt ▸ repeated)
        · obtain ⟨nonempty, single, lacking⟩ := faults_of_draft read (by simpa using some) accepted
          obtain ⟨rfl, empty⟩ := Draft.finish_eq_error_iff.1 refused
          exact .missingCommand bare nonempty single (lacking.2 empty)

theorem Line.faultless_of_ok {line : Line} (accepted : parse text = .ok line) :
    Faultless (words text) := by
  unfold parse Token.ofLine at accepted
  obtain ⟨tokens, read, made⟩ := bind_eq_ok_iff.1 accepted
  unfold ofTokens at made
  split at made
  · simp at made
  · next some =>
      obtain ⟨draft, added, finished⟩ := bind_eq_ok_iff.1 made
      obtain ⟨nonempty, single, lacking⟩ := faults_of_draft read (by simpa using some) added
      refine ⟨not_bareAt_of_ok read, nonempty, single, fun missing => ?_⟩
      have refused : draft.finish = .error .missingCommand :=
        Draft.finish_eq_error_iff.2 ⟨rfl, lacking.1 missing⟩
      rw [refused] at finished
      cases finished

theorem Faultless.not_fault (faultless : Faultless ws) (error : ParseError) : ¬ Fault ws error := by
  intro fault
  cases fault with
  | missingTarget bare =>
      obtain ⟨place, here, _⟩ := bare
      exact faultless.targets place _ here
  | empty none => exact faultless.nonempty none
  | repeated _ repeated =>
      obtain ⟨place, here, _⟩ := repeated
      exact faultless.single place _ here
  | missingCommand _ _ _ lacking => exact faultless.complete lacking

/-- At most one fault counts. -/
theorem Fault.unique {other : ParseError} (fault : Fault ws error) (also : Fault ws other) :
    error = other := by
  cases fault with
  | missingTarget bare =>
      have ⟨place, here, _⟩ := bare
      cases also with
      | missingTarget otherBare => rw [bare.unique otherBare fun _ _ _ => BareAt.functional]
      | empty none => simp [none, BareAt] at here
      | repeated targets _ => exact absurd here (targets _ _)
      | missingCommand targets _ _ _ => exact absurd here (targets _ _)
  | empty none =>
      subst none
      cases also with
      | missingTarget bare =>
          obtain ⟨_, here, _⟩ := bare
          simp [BareAt] at here
      | empty _ => rfl
      | repeated _ repeated =>
          obtain ⟨_, here, _⟩ := repeated
          simp [RepeatAt] at here
      | missingCommand _ nonempty _ _ => exact absurd rfl nonempty
  | repeated targets repeated =>
      have ⟨place, here, _⟩ := repeated
      cases also with
      | missingTarget bare =>
          obtain ⟨_, bareHere, _⟩ := bare
          exact absurd bareHere (targets _ _)
      | empty none => simp [none, RepeatAt] at here
      | repeated _ otherRepeated =>
          rw [repeated.unique otherRepeated fun _ _ _ => RepeatAt.functional]
      | missingCommand _ _ single _ => exact absurd here (single _ _)
  | missingCommand targets nonempty single _ =>
      cases also with
      | missingTarget bare =>
          obtain ⟨_, here, _⟩ := bare
          exact absurd here (targets _ _)
      | empty none => exact absurd none nonempty
      | repeated _ repeated =>
          obtain ⟨_, here, _⟩ := repeated
          exact absurd here (single _ _)
      | missingCommand _ _ _ _ => rfl

/-- The words are the ones of the text; a line is refused with the fault that counts, and accepted
when there is none. -/
theorem Line.parse_classified (text : String) :
    ((∀ word ∈ words text, Clean word) ∧ Layout (words text) text.toList) ∧
      (∀ error, parse text = .error error ↔ Fault (words text) error) ∧
      ((∃ line, parse text = .ok line) ↔ Faultless (words text)) := by
  refine ⟨⟨fun word mem => words_clean mem, layout_words text⟩, fun error => ⟨fault_of_error, ?_⟩,
    ?_, ?_⟩
  · intro fault
    cases parsed : parse text with
    | ok line => exact absurd fault ((faultless_of_ok parsed).not_fault error)
    | error other => rw [(fault_of_error parsed).unique fault]
  · rintro ⟨line, accepted⟩
    exact faultless_of_ok accepted
  · intro faultless
    cases parsed : parse text with
    | ok line => exact ⟨line, rfl⟩
    | error error => exact absurd (fault_of_error parsed) (faultless.not_fault error)

example : Line.parse "| cat < a < b > | <" = .error (.missingTarget .output) := by
  decide +kernel

end Classified

end LineShell
