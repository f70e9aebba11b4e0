/-
# LineShell.Proofs.Ordering -- search paths that are put together

Two search paths with a colon between them are searched one after the other, and an entry
that stood there before is of no use.  Both are first said of `SearchPath.find?`, then of
look-ups while the files stay as they are (`Shell.Ordered`).  Search paths are any byte
strings: an empty one is one empty entry, and colons at its ends or in a row make more of
them.
-/
import LineShell.Proofs.Resolving

namespace LineShell

set_option autoImplicit false

namespace SearchPath

variable {present : Path → Bool} {name : String} {directory : Path}

theorem found_append (first second : Bytes) :
    found name (some (first ++ colon :: second)) directory =
      found name (some first) directory ++ found name (some second) directory := by
  simp [found, entries_append]

/-- The second search path counts where the first has nothing. -/
theorem find?_append (first second : Bytes) :
    find? present name (some (first ++ colon :: second)) directory =
      match find? present name (some first) directory with
      | .ok path => .ok path
      | .error _ => find? present name (some second) directory := by
  cases absolute : (Path.ofText name).isAbsolute with
  | true =>
      simp only [find?_of_absolute absolute]
      cases present (.ofText name) <;> rfl
  | false =>
      simp only [find?_of_relative absolute, found_append, List.find?_append]
      cases (found name (some first) directory).find? present <;> rfl

theorem find?_of_mem_earlier {earlier later : List Path} {path : Path} (mem : path ∈ earlier) :
    (earlier ++ path :: later).find? present = (earlier ++ later).find? present := by
  rw [List.find?_append, List.find?_append]
  cases there : present path with
  | true =>
      obtain ⟨chosen, found⟩ := Option.isSome_iff_exists.1 (List.find?_isSome.2 ⟨path, mem, there⟩)
      rw [found, Option.some_or, Option.some_or]
  | false => rw [List.find?_cons_of_neg (by simp [there])]

/-- An entry that stood there before can be left out. -/
theorem find?_of_repeated {longer shorter : Bytes} {earlier later : List Bytes} {entry : Bytes}
    (long : Cut longer (earlier ++ entry :: later)) (repeated : entry ∈ earlier)
    (short : Cut shorter (earlier ++ later)) :
    find? present name (some longer) directory = find? present name (some shorter) directory := by
  cases absolute : (Path.ofText name).isAbsolute with
  | true => rw [find?_of_absolute absolute, find?_of_absolute absolute]
  | false =>
      rw [find?_of_relative absolute, find?_of_relative absolute]
      simp only [found, Option.getD_some, cut_iff.1 long, cut_iff.1 short, List.map_append,
        List.map_cons]
      rw [find?_of_mem_earlier (List.mem_map_of_mem repeated)]

/-- What is left of a search path without an entry that stood there before is a search path. -/
theorem Cut.without {searchPath : Bytes} {earlier later : List Bytes} {entry : Bytes}
    (cut : Cut searchPath (earlier ++ entry :: later)) (repeated : entry ∈ earlier) :
    Cut (List.intercalate [colon] (earlier ++ later)) (earlier ++ later) where
  nonempty := List.append_ne_nil_of_left_ne_nil (List.ne_nil_of_mem repeated) later
  clean kept mem := by
    refine cut.clean kept ?_
    rcases List.mem_append.1 mem with before | after
    · exact List.mem_append_left _ before
    · exact List.mem_append_right _ (List.mem_cons_of_mem _ after)
  spells := rfl

/-- Only an entry of the first search path that matches makes a difference to the second. -/
theorem exists_candidate_of_find?_append_ne {first second : Bytes}
    (changed : find? present name (some (first ++ colon :: second)) directory ≠
      find? present name (some second) directory) :
    ∃ entries place path, Cut first entries ∧ Candidate name directory entries place path ∧
      present path = true := by
  cases alone : find? present name (some first) directory with
  | error error => exact absurd (by rw [find?_append, alone]) changed
  | ok path =>
      cases chooses_iff_find?.2 alone with
      | entry relative cut candidate there before => exact ⟨_, _, _, cut, candidate, there⟩
      | itself begins there =>
          -- An absolute name is found without any entry, so the second search path gives it too.
          have absolute := Path.isAbsolute_ofText.2 ⟨_, begins⟩
          exact absurd (by rw [find?_of_absolute absolute, find?_of_absolute absolute]) changed

end SearchPath

/-! ## Look-ups -/

/-- The same surroundings with a search path. -/
def Surroundings.seeking (surroundings : Surroundings) (searchPath : Bytes) : Surroundings :=
  { surroundings with
    environment := surroundings.environment.assign SearchPath.variableName searchPath }

@[simp] theorem Surroundings.searchPath_seeking (surroundings : Surroundings) (searchPath : Bytes) :
    (surroundings.seeking searchPath).searchPath = some searchPath :=
  Environment.value?_assign_self _ _ _

@[simp] theorem Surroundings.directory_seeking (surroundings : Surroundings) (searchPath : Bytes) :
    (surroundings.seeking searchPath).directory = surroundings.directory :=
  rfl

namespace Shell

variable {present : Path → Bool} {name : String} {surroundings : Surroundings}

theorem resolves_seeking_iff {searchPath : Bytes} {result : Except NotFound Path} :
    Resolves present name (surroundings.seeking searchPath) result ↔
      SearchPath.find? present name (some searchPath) surroundings.directory = result := by
  rw [resolves_iff_find?, Surroundings.searchPath_seeking, Surroundings.directory_seeking]

/-- How the results of look-ups along different search paths go together. -/
structure Ordered (present : Path → Bool) (name : String) (surroundings : Surroundings) : Prop where
  total : ∀ searchPath, ∃! result, Resolves present name (surroundings.seeking searchPath) result
  /-- What comes after a search path that leads to a file changes nothing. -/
  found : ∀ first second path, Resolves present name (surroundings.seeking first) (.ok path) →
    ∀ result,
      Resolves present name (surroundings.seeking (first ++ SearchPath.colon :: second)) result ↔
        result = .ok path
  /-- Where the first search path leads to nothing, the second is all that counts. -/
  missed : ∀ first second error, Resolves present name (surroundings.seeking first) (.error error) →
    ∀ result,
      Resolves present name (surroundings.seeking (first ++ SearchPath.colon :: second)) result ↔
        Resolves present name (surroundings.seeking second) result
  /-- What comes before a search path changes the result only if one of its entries matches. -/
  matched : ∀ first second result other,
    Resolves present name (surroundings.seeking (first ++ SearchPath.colon :: second)) result →
      Resolves present name (surroundings.seeking second) other → result ≠ other →
        ∃ entries place path, SearchPath.Cut first entries ∧
          SearchPath.Candidate name surroundings.directory entries place path ∧ present path = true
  /-- An entry equal to an earlier one can be left out. -/
  repeated : ∀ searchPath earlier entry later,
    SearchPath.Cut searchPath (earlier ++ entry :: later) → entry ∈ earlier →
      ∃ shorter, SearchPath.Cut shorter (earlier ++ later) ∧
        ∀ result, Resolves present name (surroundings.seeking searchPath) result ↔
          Resolves present name (surroundings.seeking shorter) result

/-- Along a search path that is put together, the earlier part goes first. -/
theorem searches_in_order (present : Path → Bool) (name : String) (surroundings : Surroundings) :
    Ordered present name surroundings where
  total searchPath :=
    ⟨_, resolves_seeking_iff.2 rfl, fun _ resolves => (resolves_seeking_iff.1 resolves).symm⟩
  found first second path alone result := by
    rw [resolves_seeking_iff, SearchPath.find?_append, resolves_seeking_iff.1 alone]
    exact eq_comm
  missed first second error alone result := by
    rw [resolves_seeking_iff, SearchPath.find?_append, resolves_seeking_iff.1 alone,
      resolves_seeking_iff]
  matched first second result other joined alone differ := by
    rw [← resolves_seeking_iff.1 joined, ← resolves_seeking_iff.1 alone] at differ
    exact SearchPath.exists_candidate_of_find?_append_ne differ
  repeated searchPath earlier entry later cut repeated := by
    refine ⟨_, cut.without repeated, fun result => ?_⟩
    rw [resolves_seeking_iff, resolves_seeking_iff,
      SearchPath.find?_of_repeated cut repeated (cut.without repeated)]

end Shell

end LineShell
