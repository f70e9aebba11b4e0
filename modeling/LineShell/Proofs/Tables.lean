/-
# LineShell.Proofs.Tables -- what a child makes of its descriptors

A child is started with a copy of the shell's descriptors.  Its table changes with
every file that it opens, duplicates or closes, and with nothing else.  Tables are
compared by what they give for each descriptor (`Descriptors.Same`).

`Outlet` is what a descriptor leads to: a file from before, one of the two ends of
the pipe, or a file that a child has opened.  Each is told apart from the others by
its constructor, so a table says where every descriptor comes from.

`Table.Answers` are the answers to a child.  A new descriptor has the lowest free
number (`Descriptors.Lowest`), duplicating and closing fail for a descriptor that is
not open and for nothing else, and a directory or a file may be refused, for the
causes that are a parameter.

The main statements follow the steps of a child: `rebind_heeds` for one stream,
`wire_heeds` for an end of a pipe, `enter_heeds` for the whole way to the program.
They say that a child is at its program with the expected table, or that something
was refused.
-/
import LineShell.Host.Descriptors
import LineShell.Proofs.Entering
import LineShell.Proofs.Preparing
import LineShell.Proofs.Tracing
import Mathlib.Data.List.Nodup
import Mathlib.Data.List.Perm.Subperm

namespace LineShell

set_option autoImplicit false

namespace Descriptors

variable {α : Type}

/-- Both tables give every descriptor the same file. -/
def Same (table other : Descriptors α) : Prop :=
  ∀ descriptor, table.get? descriptor = other.get? descriptor

variable {table other : Descriptors α}

theorem Same.refl (table : Descriptors α) : table.Same table :=
  fun _ => rfl

theorem Same.set (same : table.Same other) (descriptor : Descriptor) (file : α) :
    (table.set descriptor file).Same (other.set descriptor file) := by
  intro asked
  rw [get?_set, get?_set, same asked]

/-! ## The lowest free descriptor -/

/-- The descriptor is free, and every lower one is not. -/
structure Lowest (table : Descriptors α) (descriptor : Descriptor) : Prop where
  free : table.get? descriptor = none
  taken : ∀ lower < descriptor, (table.get? lower).isSome = true

theorem mem_keys_of_isSome {descriptor : Descriptor}
    (found : (table.get? descriptor).isSome = true) : descriptor ∈ table.entries.map Prod.fst := by
  by_contra absent
  have unknown : table.entries.lookup descriptor = none := by
    rw [List.lookup_eq_none_iff]
    intro entry mem
    have ne : descriptor ≠ entry.1 := fun same => absent (List.mem_map.2 ⟨entry, mem, same.symm⟩)
    simpa using ne
  rw [get?, unknown] at found
  simp at found

/-- What is passed over while a free descriptor is looked for is taken. -/
theorem isSome_of_lt_firstFree (count : Nat) :
    ∀ floor descriptor, floor ≤ descriptor → descriptor < table.firstFree count floor →
      (table.get? descriptor).isSome = true := by
  induction count with
  | zero =>
      intro floor descriptor above below
      exact absurd below (Nat.not_lt.2 above)
  | succ count ih =>
      intro floor descriptor above below
      rw [firstFree] at below
      split at below
      · next found =>
          rcases Nat.eq_or_lt_of_le above with rfl | higher
          · exact found
          · exact ih (floor + 1) descriptor higher below
      · exact absurd below (Nat.not_lt.2 above)

theorem firstFree_free_or (count : Nat) :
    ∀ floor, table.get? (table.firstFree count floor) = none ∨
      table.firstFree count floor = floor + count := by
  induction count with
  | zero => exact fun floor => .inr rfl
  | succ count ih =>
      intro floor
      rw [firstFree]
      split
      · rcases ih (floor + 1) with free | reached
        · exact .inl free
        · exact .inr (reached.trans (Nat.succ_add_eq_add_succ floor count))
      · next free => exact .inl (Option.not_isSome_iff_eq_none.1 free)

/-- The number that a table hands out is the lowest free one: it cannot have more taken numbers than
entries. -/
theorem lowest_lowestFree (table : Descriptors α) : table.Lowest (table.lowestFree 0) := by
  have passed : ∀ lower < table.lowestFree 0, (table.get? lower).isSome = true :=
    fun lower below => isSome_of_lt_firstFree table.entries.length 0 lower (Nat.zero_le _) below
  refine ⟨?_, passed⟩
  have ended : table.get? (table.lowestFree 0) = none ∨ table.lowestFree 0 = 0 + table.entries.length :=
    firstFree_free_or table.entries.length 0
  rcases ended with free | reached
  · exact free
  · rw [Nat.zero_add] at reached
    by_contra found
    rw [reached, ← ne_eq, Option.ne_none_iff_isSome] at found
    have known : List.range (table.entries.length + 1) ⊆ table.entries.map Prod.fst := by
      intro descriptor mem
      apply mem_keys_of_isSome
      rcases Nat.eq_or_lt_of_le (Nat.lt_succ_iff.1 (List.mem_range.1 mem)) with rfl | lower
      · exact found
      · exact passed descriptor (by rwa [reached])
    have longer := (List.subperm_of_subset List.nodup_range known).length_le
    rw [List.length_range, List.length_map] at longer
    exact absurd longer (Nat.not_succ_le_self _)

end Descriptors

/-! ## What descriptors lead to -/

/-- What a descriptor leads to while a pipe is set up. -/
inductive Outlet (α : Type) where
  /-- A file that was open before. -/
  | kept (file : α)
  /-- The end of the pipe that is read from. -/
  | reading
  /-- The end of the pipe that is written to. -/
  | writing
  /-- A file that a child has opened. -/
  | opened (path : Path) (access : Entry.Access)
  deriving DecidableEq

/-- The descriptors of a process while a pipe is set up. -/
abbrev Table (α : Type) := Descriptors (Outlet α)

namespace Table

variable {α : Type}

/-- A table as it was before the pipe. -/
def inherited (table : Descriptors α) : Table α :=
  ⟨table.entries.map fun entry => (entry.1, .kept entry.2)⟩

@[simp] theorem get?_inherited (table : Descriptors α) (descriptor : Descriptor) :
    (inherited table).get? descriptor = (table.get? descriptor).map .kept := by
  obtain ⟨entries⟩ := table
  simp only [inherited, Descriptors.get?]
  induction entries with
  | nil => rfl
  | cons entry rest ih =>
      obtain ⟨number, file⟩ := entry
      by_cases asked : descriptor = number
      · simp [asked]
      · simp [List.lookup_cons, beq_eq_false_iff_ne.2 asked, ih]

/-- The table after a stream has been given the file that it is redirected to, if there is one. -/
def redirected (table : Table α) (stream : Descriptor) (file : Option Path)
    (access : Entry.Access) : Table α :=
  match file with
  | none => table
  | some path => table.set stream (.opened path access)

/-- The table after both streams have been redirected. -/
def entered (table : Table α) (redirects : Redirects) : Table α :=
  (table.redirected 0 redirects.stdin .read).redirected 1 redirects.stdout .truncate

theorem get?_redirected (table : Table α) (stream : Descriptor) (file : Option Path)
    (access : Entry.Access) (descriptor : Descriptor) :
    (table.redirected stream file access).get? descriptor =
      if descriptor = stream then (file.map (Outlet.opened · access)).or (table.get? descriptor)
      else table.get? descriptor := by
  cases file <;> simp [redirected]

/-! ## Answers to a child -/

/-- The answers to a child whose directory and files may be refused for some causes. -/
def Answers (refuses : Errno → Prop) : (call : Entry.Call) → Table α → call.Answer → Table α → Prop
  | .enterDirectory _, before, answer, after =>
      (answer = .ok () ∨ ∃ errno, refuses errno ∧ answer = .error errno) ∧ after = before
  | .openFile file access, before, answer, after =>
      (∃ opened, before.Lowest opened ∧ answer = .ok opened ∧
        after = before.set opened (.opened file.path access)) ∨
      (∃ errno, refuses errno ∧ answer = .error errno) ∧ after = before
  | .duplicate source target, before, answer, after =>
      (∃ outlet, before.get? source = some outlet ∧ answer = .ok () ∧
        after = before.set target outlet) ∨
      before.get? source = none ∧ answer = .error .EBADF ∧ after = before
  | .close descriptor, before, answer, after =>
      ((before.get? descriptor).isSome = true ∧ answer = .ok () ∧ after = before.erase descriptor) ∨
      before.get? descriptor = none ∧ answer = .error .EBADF ∧ after = before
  | .execute _ _ _, before, _, after => after = before
  | .write _ _, before, _, after => after = before

/-- Answers that refuse nothing, while no program can be executed. -/
def serve : (call : Entry.Call) → Table α → Option (call.Answer × Table α)
  | .enterDirectory _, table => some (.ok (), table)
  | .openFile file access, table =>
      let (opened, after) := table.add 0 (.opened file.path access)
      some (.ok opened, after)
  | .duplicate source target, table =>
      match table.get? source with
      | none => some (.error .EBADF, table)
      | some outlet => some (.ok (), table.set target outlet)
  | .close descriptor, table =>
      if (table.get? descriptor).isSome then some (.ok (), table.erase descriptor)
      else some (.error .EBADF, table)
  | .execute _ _ _, table => some (.ENOENT, table)
  | .write _ bytes, table => some (.ok bytes.length, table)

/-- A child hands itself over to its program with the expected table only. -/
def ReadyFor (expected : Table α) : Entry.Call → Table α → Prop
  | .execute _ _ _, table => table.Same expected
  | _, _ => True

/-- The child that leaves has the expected table, unless something was refused. -/
def Leaves (refuses : Errno → Prop) (expected : Table α) (code : Int) (after : Table α) : Prop :=
  (code ≠ Entry.exitSetupFailed ∧ after.Same expected) ∨
    code = Entry.exitSetupFailed ∧ ∃ errno, refuses errno

section Steps

variable {refuses : Errno → Prop} {expected start table : Table α}

theorem close_heeds {descriptor : Descriptor} (known : (table.get? descriptor).isSome = true) :
    Program.Heeds (Answers refuses) (ReadyFor expected) (Entry.system (.close descriptor))
      (fun result after => result = .ok () ∧ after = table.erase descriptor) table := by
  refine Program.heeds_request trivial fun answer after answered => ?_
  rcases answered with ⟨_, done⟩ | ⟨absent, _⟩
  · exact done
  · rw [absent] at known
    simp at known

theorem duplicate_heeds {source : Descriptor} {outlet : Outlet α}
    (known : table.get? source = some outlet) (target : Descriptor) :
    Program.Heeds (Answers refuses) (ReadyFor expected) (Entry.system (.duplicate source target))
      (fun result after => result = .ok () ∧ after = table.set target outlet) table := by
  refine Program.heeds_request trivial fun answer after answered => ?_
  rcases answered with ⟨found, there, done⟩ | ⟨absent, _⟩
  · rw [known] at there
    obtain rfl := Option.some.inj there
    exact done
  · rw [known] at absent
    simp at absent

/-- Opening a file for a stream gives the stream the file and changes nothing else. -/
theorem rebind_heeds (same : table.Same start) (file : NulFree) (access : Entry.Access)
    (stream : Descriptor) :
    Program.Heeds (Answers refuses) (ReadyFor expected) (Entry.rebind file access stream)
      (fun result after =>
        (result = .ok () ∧ after.Same (start.set stream (.opened file.path access))) ∨
        ∃ errno, refuses errno ∧ result = .error errno ∧ after.Same start) table := by
  unfold Entry.rebind
  refine .bind (Program.heeds_request trivial fun answer after answered => ?_)
  rcases answered with ⟨opened, lowest, rfl, rfl⟩ | ⟨⟨errno, refused, rfl⟩, rfl⟩
  · simp only
    split
    · next there =>
        -- The system has handed out the stream's own number.
        subst there
        exact Program.heeds_pure (.inl ⟨rfl, same.set opened _⟩)
    · next elsewhere =>
        have open_there : (table.set opened (.opened file.path access)).get? opened =
            some (.opened file.path access) := by simp
        refine .bind ((duplicate_heeds open_there stream).imp ?_)
        rintro _ after ⟨rfl, rfl⟩
        refine (close_heeds (by simp)).imp ?_
        rintro _ after ⟨rfl, rfl⟩
        refine .inl ⟨rfl, fun asked => ?_⟩
        simp only [Descriptors.get?_erase, Descriptors.get?_set, ← same asked]
        by_cases gone : asked = opened
        · subst gone
          rw [if_pos rfl, if_neg elsewhere, lowest.free]
        · rw [if_neg gone, if_neg gone]
  · exact Program.heeds_pure (.inr ⟨errno, refused, rfl, same⟩)

/-- An end of a pipe takes the place of a stream, and neither end keeps a number of its own. -/
theorem wire_heeds {wiring : Entry.Wiring} {outlet : Outlet α}
    (known : (table.get? wiring.unused).isSome = true)
    (used : table.get? wiring.used = some outlet) (apart : wiring.used ≠ wiring.unused)
    (moves : wiring.used ≠ wiring.stream) :
    Program.Heeds (Answers refuses) (ReadyFor expected) (Entry.wire wiring)
      (fun result after => result = .ok () ∧
        after = ((table.erase wiring.unused).set wiring.stream outlet).erase wiring.used) table := by
  unfold Entry.wire
  refine .bind ((close_heeds known).imp ?_)
  rintro _ after ⟨rfl, rfl⟩
  have still : (table.erase wiring.unused).get? wiring.used = some outlet := by
    rw [Descriptors.get?_erase, if_neg apart, used]
  refine .bind ((duplicate_heeds still wiring.stream).imp ?_)
  rintro _ after ⟨rfl, rfl⟩
  have both : (((table.erase wiring.unused).set wiring.stream outlet).get? wiring.used).isSome = true := by
    rw [Descriptors.get?_set, if_neg moves, still]
    rfl
  exact close_heeds both

/-- The table stays as it is while a report is written. -/
theorem reporting_heeds (parts : List Bytes) :
    Program.Heeds (Answers refuses) (ReadyFor expected) (Entry.report parts)
      (fun _ after => after = table) table :=
  Entry.report_heeds (fun _ _ => trivial) (fun _ _ _ _ written => written) parts table

theorem refuse_heeds {errno : Errno} (refused : refuses errno) (subject : Bytes) :
    Program.Heeds (Answers refuses) (ReadyFor expected) (Entry.refuse subject errno)
      (Leaves refuses expected) table := by
  unfold Entry.refuse
  refine .bind ((reporting_heeds _).imp fun _ _ _ => ?_)
  exact Program.heeds_pure (.inr ⟨rfl, errno, refused⟩)

/-- What follows a redirection finds the stream redirected. -/
theorem redirect_heeds (same : table.Same start) {file : Option NulFree} {access : Entry.Access}
    {stream : Descriptor} {rest : Entry Int}
    (follows : ∀ after : Table α, after.Same (start.redirected stream (file.map NulFree.path) access) →
      Program.Heeds (Answers refuses) (ReadyFor expected) rest (Leaves refuses expected) after) :
    Program.Heeds (Answers refuses) (ReadyFor expected) (Entry.redirect file access stream rest)
      (Leaves refuses expected) table := by
  cases file with
  | none => exact follows table same
  | some target =>
      unfold Entry.redirect
      refine .bind ((rebind_heeds same target access stream).imp ?_)
      rintro _ after (⟨rfl, bound⟩ | ⟨errno, refused, rfl, _⟩)
      · exact follows after bound
      · exact refuse_heeds refused _

theorem handOver_heeds (same : table.Same expected) (image : Image) :
    Program.Heeds (Answers refuses) (ReadyFor expected) (Entry.handOver image)
      (Leaves refuses expected) table := by
  unfold Entry.handOver
  split
  · refine .bind ((reporting_heeds _).imp ?_)
    rintro _ after rfl
    exact Program.heeds_pure (.inl ⟨by decide, same⟩)
  · refine .bind (Program.heeds_request same fun errno after failed => ?_)
    obtain rfl : after = table := failed
    refine .bind ((reporting_heeds _).imp ?_)
    rintro _ last rfl
    refine Program.heeds_pure (.inl ⟨?_, same⟩)
    split <;> decide

/-- The streams of an image, by the paths that it names. -/
def streamsOf (image : Image) : Redirects :=
  ⟨image.stdin.map NulFree.path, image.stdout.map NulFree.path⟩

/-- A child whose streams are in place is at its program when both are redirected. -/
theorem enter_heeds {image : Image} (same : table.Same start)
    (reached : expected = start.entered (streamsOf image)) :
    Program.Heeds (Answers refuses) (ReadyFor expected) (Entry.enter image)
      (Leaves refuses expected) table := by
  unfold Entry.enter
  refine .bind (Program.heeds_request trivial fun answer after entered => ?_)
  obtain ⟨rfl | ⟨errno, refused, rfl⟩, rfl⟩ := entered
  · refine redirect_heeds same fun after same => ?_
    refine redirect_heeds same fun after same => ?_
    refine handOver_heeds ?_ image
    rw [reached]
    exact same
  · exact refuse_heeds refused _

end Steps

end Table

end LineShell
