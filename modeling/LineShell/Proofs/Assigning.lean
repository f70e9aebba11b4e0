/-
# LineShell.Proofs.Assigning -- the first entry of a name counts

A name may occur several times in an environment, and then only its first entry is ever
looked at.  `Environment.place` is where that entry stands, or the end of the list when
the name does not occur.  A variable is read from there (`value?_eq_place`) and an update
writes there and nowhere else (`getElem?_assign`), so the two cannot disagree about which
of several entries is meant.

What an update does is also said by taking the environment apart at the first entry
(`split_at`): either every entry has another name, or there is a front part in which all
have.  `Environment.first_counts` has the laws of updates for every environment.
-/
import LineShell.Environment

namespace LineShell

set_option autoImplicit false

namespace Environment

variable {environment before front back : Environment} {name other value also : Bytes}

/-! ## The first entry of a name -/

theorem assign_of_absent (value : Bytes) (absent : ∀ other ∈ before, other.name ≠ name) :
    before.assign name value = before ++ [⟨name, value⟩] := by
  induction before with
  | nil => rfl
  | cons first rest ih =>
      obtain ⟨differs, later⟩ := List.forall_mem_cons.1 absent
      rw [assign, if_neg differs, ih later, List.cons_append]

theorem assign_of_front (old value : Bytes) (absent : ∀ other ∈ front, other.name ≠ name) :
    assign (front ++ ⟨name, old⟩ :: back) name value = front ++ ⟨name, value⟩ :: back := by
  induction front with
  | nil => simp [assign]
  | cons first rest ih =>
      obtain ⟨differs, later⟩ := List.forall_mem_cons.1 absent
      rw [List.cons_append, assign, if_neg differs, ih later, List.cons_append]

/-- The first variable with a name is found, or there is none. -/
theorem split_at (environment : Environment) (name : Bytes) :
    (∀ other ∈ environment, other.name ≠ name) ∨
      ∃ front value back, environment = front ++ ⟨name, value⟩ :: back ∧
        ∀ other ∈ front, other.name ≠ name := by
  induction environment with
  | nil => exact .inl nofun
  | cons first rest ih =>
      by_cases same : first.name = name
      · subst same
        exact .inr ⟨[], first.value, rest, rfl, nofun⟩
      · rcases ih with absent | ⟨front, value, back, rfl, absent⟩
        · exact .inl (List.forall_mem_cons.2 ⟨same, absent⟩)
        · exact .inr ⟨first :: front, value, back, rfl, List.forall_mem_cons.2 ⟨same, absent⟩⟩

theorem value?_of_absent (absent : ∀ other ∈ before, other.name ≠ name) :
    before.value? name = none := by
  induction before with
  | nil => rfl
  | cons first rest ih =>
      obtain ⟨differs, later⟩ := List.forall_mem_cons.1 absent
      rw [value?, if_neg differs, ih later]

theorem value?_of_front {front back : Environment} (absent : ∀ other ∈ front, other.name ≠ name) :
    value? (front ++ ⟨name, value⟩ :: back) name = some value := by
  induction front with
  | nil => simp [value?]
  | cons first rest ih =>
      obtain ⟨differs, later⟩ := List.forall_mem_cons.1 absent
      rw [List.cons_append, value?, if_neg differs, ih later]

theorem value?_eq_none_iff : before.value? name = none ↔ ∀ other ∈ before, other.name ≠ name := by
  refine ⟨fun none => ?_, value?_of_absent⟩
  rcases before.split_at name with absent | ⟨front, old, back, rfl, absent⟩
  · exact absent
  · rw [value?_of_front absent] at none
    cases none

theorem value?_eq_some_iff : before.value? name = some value ↔
    ∃ front back, before = front ++ ⟨name, value⟩ :: back ∧ ∀ other ∈ front, other.name ≠ name := by
  constructor
  · intro some
    rcases before.split_at name with absent | ⟨front, old, back, rfl, absent⟩
    · rw [value?_of_absent absent] at some
      cases some
    · obtain rfl := Option.some.inj ((value?_of_front absent).symm.trans some)
      exact ⟨front, back, rfl, absent⟩
  · rintro ⟨front, back, rfl, absent⟩
    exact value?_of_front absent

theorem exists_value?_iff :
    (∃ value, before.value? name = some value) ↔ ∃ other ∈ before, other.name = name := by
  rcases before.split_at name with absent | ⟨front, old, back, rfl, absent⟩
  · rw [value?_of_absent absent]
    exact iff_of_false nofun fun ⟨other, mem, same⟩ => absent other mem same
  · rw [value?_of_front absent]
    exact iff_of_true ⟨old, rfl⟩ ⟨⟨name, old⟩, by simp, rfl⟩

theorem length_assign_eq_succ_iff :
    (before.assign name value).length = before.length + 1 ↔ ∀ other ∈ before, other.name ≠ name := by
  rcases before.split_at name with absent | ⟨front, old, back, rfl, absent⟩
  · rw [assign_of_absent value absent]
    exact iff_of_true List.length_append absent
  · rw [assign_of_front old value absent]
    exact iff_of_false (by simp) fun none => none ⟨name, old⟩ (by simp) rfl

theorem length_assign_eq_iff :
    (before.assign name value).length = before.length ↔ ∃ other ∈ before, other.name = name := by
  rcases before.split_at name with absent | ⟨front, old, back, rfl, absent⟩
  · rw [assign_of_absent value absent]
    exact iff_of_false (by simp) fun ⟨other, mem, same⟩ => absent other mem same
  · rw [assign_of_front old value absent]
    exact iff_of_true (by simp) ⟨⟨name, old⟩, by simp, rfl⟩

/-! ## Its place -/

/-- The place of the first entry with a name, or the end if there is none. -/
def place (environment : Environment) (name : Bytes) : Nat :=
  environment.findIdx fun entry => entry.name = name

theorem place_cons_of_eq (first : Variable) (rest : Environment) (same : first.name = name) :
    place (first :: rest) name = 0 := by
  simp [place, List.findIdx_cons, same]

theorem place_cons_of_ne (first : Variable) (rest : Environment) (differs : first.name ≠ name) :
    place (first :: rest) name = rest.place name + 1 := by
  simp [place, List.findIdx_cons, differs]

theorem value?_eq_place (environment : Environment) (name : Bytes) :
    environment.value? name = environment[environment.place name]?.map Variable.value := by
  induction environment with
  | nil => rfl
  | cons first rest ih =>
      by_cases same : first.name = name
      · rw [place_cons_of_eq first rest same, value?, if_pos same]
        rfl
      · rw [place_cons_of_ne first rest same, value?, if_neg same, ih, List.getElem?_cons_succ]

/-- After an update every entry is as it was, except for the one in the place of the name. -/
theorem getElem?_assign (environment : Environment) (name value : Bytes) (index : Nat) :
    (environment.assign name value)[index]? =
      if index = environment.place name then some ⟨name, value⟩ else environment[index]? := by
  induction environment generalizing index with
  | nil => cases index <;> simp [assign, place]
  | cons first rest ih =>
      by_cases same : first.name = name
      · rw [place_cons_of_eq first rest same, assign, if_pos same]
        cases index <;> simp [same]
      · rw [place_cons_of_ne first rest same, assign, if_neg same]
        cases index <;> simp [ih]

/-! ## Several updates -/

theorem assign_assign (environment : Environment) (name value later : Bytes) :
    (environment.assign name value).assign name later = environment.assign name later := by
  induction environment with
  | nil => simp [assign]
  | cons first rest ih =>
      by_cases same : first.name = name
      · simp [assign, same]
      · simp [assign, same, ih]

theorem assign_eq_self_iff :
    environment.assign name value = environment ↔ environment.value? name = some value := by
  constructor
  · intro same
    rw [← same]
    exact value?_assign_self environment name value
  · intro found
    obtain ⟨front, back, rfl, absent⟩ := value?_eq_some_iff.1 found
    exact assign_of_front value value absent

theorem assign_comm_of_present (differ : name ≠ other)
    (present : ∃ entry ∈ environment, entry.name = name ∨ entry.name = other) :
    (environment.assign name value).assign other also =
      (environment.assign other also).assign name value := by
  induction environment with
  | nil => simp at present
  | cons first rest ih =>
      by_cases one : first.name = name
      · have another : first.name ≠ other := one ▸ differ
        simp [assign, one, differ]
      · by_cases another : first.name = other
        · simp [assign, another, differ.symm]
        · have behind : ∃ entry ∈ rest, entry.name = name ∨ entry.name = other := by
            simpa [one, another] using present
          simp [assign, one, another, ih behind]

/-- Only the entries that two updates append have the order of the updates. -/
theorem assign_comm_iff (differ : name ≠ other) :
    (environment.assign name value).assign other also =
        (environment.assign other also).assign name value ↔
      ∃ entry ∈ environment, entry.name = name ∨ entry.name = other := by
  refine ⟨fun same => ?_, assign_comm_of_present differ⟩
  rcases environment.split_at name with absent | ⟨front, old, back, rfl, _⟩
  · rcases environment.split_at other with alsoAbsent | ⟨front, old, back, rfl, _⟩
    · have absentLater : ∀ entry ∈ environment ++ [⟨name, value⟩], entry.name ≠ other :=
        List.forall_mem_append.2 ⟨alsoAbsent, List.forall_mem_singleton.2 differ⟩
      have alsoAbsentLater : ∀ entry ∈ environment ++ [⟨other, also⟩], entry.name ≠ name :=
        List.forall_mem_append.2 ⟨absent, List.forall_mem_singleton.2 differ.symm⟩
      rw [assign_of_absent value absent, assign_of_absent also alsoAbsent,
        assign_of_absent also absentLater, assign_of_absent value alsoAbsentLater] at same
      simp [differ] at same
    · exact ⟨⟨other, old⟩, by simp, .inr rfl⟩
  · exact ⟨⟨name, old⟩, by simp, .inl rfl⟩

/-! ## The laws of updates -/

/-- Readers and updates of an environment mean the first entry of a name. -/
structure FirstCounts (environment : Environment) : Prop where
  reads : ∀ name value, (environment.assign name value).value? name = some value
  others : ∀ name value other, other ≠ name →
    (environment.assign name value).value? other = environment.value? other
  overwrites : ∀ name value later,
    (environment.assign name value).assign name later = environment.assign name later
  /-- An update with the value that is there already changes nothing, and no other update does so. -/
  idle : ∀ name value,
    environment.assign name value = environment ↔ environment.value? name = some value
  /-- The order of updates of two names shows only if both names are new. -/
  commutes : ∀ name value other also, name ≠ other →
    ((environment.assign name value).assign other also =
        (environment.assign other also).assign name value ↔
      ∃ entry ∈ environment, entry.name = name ∨ entry.name = other)
  /-- A variable is read from the first entry with its name, -/
  source : ∀ name,
    environment.value? name = environment[environment.place name]?.map Variable.value
  /-- and there an update writes; all other entries are as they were, in their places. -/
  entries : ∀ name value index, (environment.assign name value)[index]? =
    if index = environment.place name then some ⟨name, value⟩ else environment[index]?
  grows : ∀ name value, (environment.assign name value).length = environment.length + 1 ↔
    environment.value? name = none
  fits : ∀ name value, (environment.assign name value).length = environment.length ↔
    ∃ old, environment.value? name = some old

/-- In every environment, repeated names or not, the first entry of a name is the one that is read
and the one that an update changes. -/
theorem first_counts (environment : Environment) : FirstCounts environment where
  reads := value?_assign_self environment
  others _ value _ differ := value?_assign_of_ne environment value differ
  overwrites := assign_assign environment
  idle _ _ := assign_eq_self_iff
  commutes _ _ _ _ differ := assign_comm_iff differ
  source := value?_eq_place environment
  entries := getElem?_assign environment
  grows _ _ := length_assign_eq_succ_iff.trans value?_eq_none_iff.symm
  fits _ _ := length_assign_eq_iff.trans exists_value?_iff.symm

-- The second `A` is never looked at, and the new name comes behind it.
example :
    let environment : Environment := [⟨"A", "1"⟩, ⟨"B", ""⟩, ⟨"A", "2"⟩]
    (environment.assign "A" "3").assign "C" "4" =
        [⟨"A", "3"⟩, ⟨"B", ""⟩, ⟨"A", "2"⟩, ⟨"C", "4"⟩] ∧
      environment.value? "A" = some "1" := by
  decide +kernel

end Environment

end LineShell
