/-
# LineShell.Proofs.Resolving -- which file a name stands for when the files stay as they are

While a name is looked up, every test of a path is answered by one predicate
(`Request.Truthful`): the files do not change in between.  `Shell.Resolves` says what a
look-up comes to then, whatever else the system does.

What it should come to is said without the look-up.  A search path is cut at its colons
(`SearchPath.Cut`): the entries hold none, and with a colon between any two they spell it
again.  An entry makes one candidate, the name as seen from the entry as seen from the
directory (`SearchPath.Candidate`).  A name that begins with a separator is the only
candidate for itself; any other stands for the first candidate that is there
(`SearchPath.Chooses`).

`Shell.locates_first` joins the two.  It rests on `resolves_iff_find?`, by which a look-up
is one function of the name, the search path and the directory.
-/
import LineShell.Proofs.Asking
import LineShell.Proofs.Joining

namespace LineShell

set_option autoImplicit false

open Program

/-! ## Cutting a search path -/

namespace SearchPath

/-- The entries of a search path, which a colon separates. -/
structure Cut (searchPath : Bytes) (entries : List Bytes) : Prop where
  nonempty : entries ≠ []
  clean : ∀ entry ∈ entries, colon ∉ entry
  spells : List.intercalate [colon] entries = searchPath

theorem entries_eq_splitOn (searchPath : Bytes) : entries searchPath = searchPath.splitOn colon := by
  induction searchPath with
  | nil => rfl
  | cons byte rest ih =>
      rw [entries, ih, List.splitOn_eq_splitOnP, List.splitOn_eq_splitOnP,
        List.splitOnP_cons_eq_if_modifyHead]
      by_cases separates : byte = colon
      · simp [separates]
      · obtain ⟨first, later, split⟩ :=
          List.exists_cons_of_ne_nil (List.splitOnP_ne_nil (· == colon) rest)
        simp [separates, split]

theorem colon_not_mem_of_mem_entries (searchPath : Bytes) :
    ∀ entry ∈ entries searchPath, colon ∉ entry := by
  induction searchPath with
  | nil => simp [entries]
  | cons byte rest ih =>
      rw [entries]
      by_cases separates : byte = colon
      · rw [if_pos separates]
        exact List.forall_mem_cons.2 ⟨List.not_mem_nil, ih⟩
      · rw [if_neg separates]
        cases split : entries rest with
        | nil => simpa using Ne.symm separates
        | cons first later =>
            rw [split] at ih
            obtain ⟨clean, others⟩ := List.forall_mem_cons.1 ih
            refine List.forall_mem_cons.2 ⟨?_, others⟩
            simpa using ⟨Ne.symm separates, clean⟩

/-- There is one way to cut a search path. -/
theorem cut_iff {searchPath : Bytes} {parts : List Bytes} :
    Cut searchPath parts ↔ entries searchPath = parts := by
  constructor
  · rintro ⟨nonempty, clean, rfl⟩
    rw [entries_eq_splitOn]
    exact List.splitOn_intercalate colon clean nonempty
  · rintro rfl
    refine ⟨?_, colon_not_mem_of_mem_entries searchPath, ?_⟩
    · rw [entries_eq_splitOn]
      exact List.splitOn_ne_nil colon searchPath
    · rw [entries_eq_splitOn]
      exact List.intercalate_splitOn colon

/-- The search path is cut in two at any of its colons. -/
theorem entries_append (first second : Bytes) :
    entries (first ++ colon :: second) = entries first ++ entries second := by
  simp only [entries_eq_splitOn, List.splitOn_eq_splitOnP]
  exact List.splitOnP_append_cons first second (beq_self_eq_true colon)

/-! ## What is chosen -/

/-- The path that the entry at a place makes of a name. -/
def Candidate (name : String) (directory : Path) (entries : List Bytes) (place : Nat) (path : Path) :
    Prop :=
  ∃ entry seen, entries[place]? = some entry ∧ Path.Joined ⟨entry⟩ (.ofText name) seen ∧
    Path.Joined directory seen path

/-- What a name stands for when `present` says which paths are there. -/
inductive Chooses (present : Path → Bool) (name : String) (searchPath : Option Bytes)
    (directory : Path) : Except NotFound Path → Prop where
  | itself {rest : List Char} : name.toList = '/' :: rest → present (.ofText name) = true →
      Chooses present name searchPath directory (.ok (.ofText name))
  | missing {rest : List Char} : name.toList = '/' :: rest → present (.ofText name) = false →
      Chooses present name searchPath directory (.error ⟨name⟩)
  /-- The entry at a place is the first whose candidate is there. -/
  | entry {entries : List Bytes} {place : Nat} {path : Path} :
      (∀ rest, name.toList ≠ '/' :: rest) → Cut (searchPath.getD []) entries →
      Candidate name directory entries place path → present path = true →
      (∀ earlier other, earlier < place → Candidate name directory entries earlier other →
        present other = false) →
      Chooses present name searchPath directory (.ok path)
  | nowhere {entries : List Bytes} :
      (∀ rest, name.toList ≠ '/' :: rest) → Cut (searchPath.getD []) entries →
      (∀ place path, Candidate name directory entries place path → present path = false) →
      Chooses present name searchPath directory (.error ⟨name⟩)

/-- What the entries make of a name, in order. -/
def found (name : String) (searchPath : Option Bytes) (directory : Path) : List Path :=
  (entries (searchPath.getD [])).map fun entry => directory.join (Path.join ⟨entry⟩ (.ofText name))

variable {present : Path → Bool} {name : String} {searchPath : Option Bytes} {directory : Path}

theorem candidate_iff {place : Nat} {path : Path} :
    Candidate name directory (entries (searchPath.getD [])) place path ↔
      (found name searchPath directory)[place]? = some path := by
  simp [Candidate, found, Path.joined_iff_join]

/-- The first path that is there stands at some place, and those before it are not there. -/
theorem find?_eq_some_iff_place {paths : List Path} {path : Path} :
    paths.find? present = some path ↔
      present path = true ∧ ∃ place : Nat, paths[place]? = some path ∧
        ∀ (earlier : Nat) (other : Path), earlier < place → paths[earlier]? = some other →
          present other = false := by
  rw [List.find?_eq_some_iff_getElem]
  refine and_congr_right fun _ => exists_congr fun place => ?_
  constructor
  · rintro ⟨inside, here, before⟩
    refine ⟨List.getElem?_eq_some_iff.2 ⟨inside, here⟩, fun earlier other less found => ?_⟩
    obtain ⟨_, rfl⟩ := List.getElem?_eq_some_iff.1 found
    simpa using before earlier less
  · rintro ⟨found, before⟩
    obtain ⟨inside, here⟩ := List.getElem?_eq_some_iff.1 found
    refine ⟨inside, here, fun earlier less => ?_⟩
    simp [before earlier _ less (List.getElem?_eq_getElem (Nat.lt_trans less inside))]

/-- No entry is put before a name that is absolute. -/
theorem find?_of_absolute (absolute : (Path.ofText name).isAbsolute = true) :
    find? present name searchPath directory =
      if present (.ofText name) then .ok (.ofText name) else .error ⟨name⟩ := by
  have same : ∀ entry : Bytes, directory.join (Path.join ⟨entry⟩ (.ofText name)) = .ofText name := by
    intro entry
    rw [Path.join_of_isAbsolute _ absolute, Path.join_of_isAbsolute _ absolute]
  unfold find? candidates
  simp only [absolute, if_true, same]
  cases there : present (.ofText name) with
  | true => simp [there]
  | false => simp [there]

theorem find?_of_relative (relative : (Path.ofText name).isAbsolute = false) :
    find? present name searchPath directory =
      match (found name searchPath directory).find? present with
      | some path => .ok path
      | none => .error ⟨name⟩ := by
  have tried : candidates name searchPath directory = found name searchPath directory := by
    simp [candidates, found, relative]
  unfold find?
  exact tried ▸ rfl

theorem isAbsolute_eq_false_iff :
    (Path.ofText name).isAbsolute = false ↔ ∀ rest, name.toList ≠ '/' :: rest := by
  rw [← Bool.not_eq_true, Path.isAbsolute_ofText, not_exists]

theorem chooses_find? (present : Path → Bool) (name : String) (searchPath : Option Bytes)
    (directory : Path) :
    Chooses present name searchPath directory (find? present name searchPath directory) := by
  by_cases begins : ∃ rest, name.toList = '/' :: rest
  · rw [find?_of_absolute (Path.isAbsolute_ofText.2 begins)]
    obtain ⟨rest, begins⟩ := begins
    split
    · next there => exact .itself begins there
    · next absent => exact .missing begins (by simpa using absent)
  · have relative := not_exists.1 begins
    have cut : Cut (searchPath.getD []) (entries (searchPath.getD [])) := cut_iff.2 rfl
    rw [find?_of_relative (isAbsolute_eq_false_iff.2 relative)]
    split
    · next path chosen =>
        obtain ⟨there, place, here, before⟩ := find?_eq_some_iff_place.1 chosen
        refine .entry relative cut (candidate_iff.2 here) there fun earlier other less candidate => ?_
        exact before earlier other less (candidate_iff.1 candidate)
    · next none =>
        refine .nowhere relative cut fun place path candidate => ?_
        simpa using List.find?_eq_none.1 none path (List.mem_of_getElem? (candidate_iff.1 candidate))

theorem Chooses.find?_eq {result : Except NotFound Path}
    (chooses : Chooses present name searchPath directory result) :
    find? present name searchPath directory = result := by
  cases chooses with
  | itself begins there => rw [find?_of_absolute (Path.isAbsolute_ofText.2 ⟨_, begins⟩), if_pos there]
  | missing begins absent =>
      rw [find?_of_absolute (Path.isAbsolute_ofText.2 ⟨_, begins⟩), if_neg (by simp [absent])]
  | entry relative cut candidate there before =>
      obtain rfl := cut_iff.1 cut
      have chosen : (found name searchPath directory).find? present = some _ :=
        find?_eq_some_iff_place.2 ⟨there, _, candidate_iff.1 candidate,
          fun earlier other less here => before earlier other less (candidate_iff.2 here)⟩
      rw [find?_of_relative (isAbsolute_eq_false_iff.2 relative), chosen]
  | nowhere relative cut absent =>
      obtain rfl := cut_iff.1 cut
      have none : (found name searchPath directory).find? present = none := by
        refine List.find?_eq_none.2 fun path mem => ?_
        obtain ⟨place, here⟩ := List.mem_iff_getElem?.1 mem
        simp [absent place path (candidate_iff.2 here)]
      rw [find?_of_relative (isAbsolute_eq_false_iff.2 relative), none]

theorem chooses_iff_find? {result : Except NotFound Path} :
    Chooses present name searchPath directory result ↔
      find? present name searchPath directory = result := by
  constructor
  · exact Chooses.find?_eq
  · rintro rfl
    exact chooses_find? present name searchPath directory

end SearchPath

/-! ## Looking up while the files stay as they are -/

/-- If the event is a test of a path, it is answered by `present`. -/
def Request.Truthful (present : Path → Bool) : Event Request Request.Answer → Prop
  | ⟨.pathExists path, there⟩ => there = present path
  | _ => True

variable {present : Path → Bool} {name : String} {surroundings : Surroundings}

/-- What a look-up can come to when every test is answered by `present`. -/
def Shell.Resolves (present : Path → Bool) (name : String) (surroundings : Surroundings)
    (result : Except NotFound Path) : Prop :=
  Gives (Request.Truthful present) (Shell.locate name surroundings) result

theorem gives_firstExisting {paths : List Path} {found : Option Path} :
    Gives (Request.Truthful present) (Shell.firstExisting paths) found ↔
      found = paths.find? present := by
  induction paths with
  | nil => exact gives_pure
  | cons path rest ih =>
      refine (gives_request_bind fun _ => Iff.rfl).trans ?_
      cases answer : present path with
      | true =>
          rw [List.find?_cons_of_pos answer]
          exact gives_pure
      | false =>
          rw [List.find?_cons_of_neg (by simp [answer])]
          exact ih

theorem resolves_iff_find? {result : Except NotFound Path} :
    Shell.Resolves present name surroundings result ↔
      SearchPath.find? present name surroundings.searchPath surroundings.directory = result := by
  unfold Shell.Resolves Shell.locate SearchPath.find?
  simp only [gives_bind, gives_firstExisting, exists_eq_left]
  generalize (SearchPath.candidates _ _ _).find? present = found
  cases found <;> exact gives_pure.trans eq_comm

/-- A look-up comes to one result, which is what the name stands for: an absolute name for itself, any
other for the first candidate that is there, in the order of the entries. -/
theorem Shell.locates_first (present : Path → Bool) (name : String) (surroundings : Surroundings) :
    (∃! result, Shell.Resolves present name surroundings result) ∧
      (∀ result, Shell.Resolves present name surroundings result ↔
        SearchPath.Chooses present name surroundings.searchPath surroundings.directory result) ∧
      ∀ {σ : Type} (step : (call : Request) → σ → call.Answer → σ → Prop) (state final : σ)
        (trace : Shell.Trace) (result : Except NotFound Path),
        Runs step (Shell.locate name surroundings) state trace result final →
          (∀ event ∈ trace, Request.Truthful present event) →
            Shell.Resolves present name surroundings result := by
  refine ⟨⟨_, resolves_iff_find?.2 rfl, fun result resolves => ?_⟩, fun result => ?_, ?_⟩
  · exact (resolves_iff_find?.1 resolves).symm
  · rw [resolves_iff_find?, SearchPath.chooses_iff_find?]
  · intro σ step state final trace result run truthful
    exact run.gives truthful

-- An empty entry, and a relative one that ends with a separator, are seen from the directory.
example :
    let present : Path → Bool := fun path => path = Path.ofText "/home/bin/ls"
    SearchPath.find? present "ls" (some (Bytes.ofText "/bin::bin/")) (Path.ofText "/home") =
      .ok (Path.ofText "/home/bin/ls") := by
  decide +kernel

end LineShell
