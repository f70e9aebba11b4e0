/-
# LineShell.Proofs.Joining -- how a path is written from two

`Path.Joined` says what the bytes of a joined path are, case by case: an absolute right
part stands alone, and otherwise the parts are written one after the other, with one
separator between them unless the left part is empty or ends with one.  `Path.join` gives
the one path that is described so (`joined_iff_join`).

Whether a path is absolute is a question about its first byte.  For a path that is
spelled by a text it is the same question about the first character
(`isAbsolute_ofText`): no character but the separator has an encoding that begins with
that byte.
-/
import LineShell.Path
import LineShell.Proofs.Rendering

namespace LineShell

set_option autoImplicit false

namespace Path

variable {left right whole : Path}

theorem isAbsolute_iff {path : Path} : path.isAbsolute = true ↔ path.bytes.head? = some separator := by
  rw [isAbsolute, beq_iff_eq]

/-- `whole` is `right` as seen from `left`. -/
inductive Joined (left right : Path) : Path → Prop where
  /-- An absolute right part replaces the left one. -/
  | replaced : right.bytes.head? = some separator → Joined left right right
  | first : right.bytes.head? ≠ some separator → left.bytes = [] → Joined left right right
  /-- The left part ends with a separator. -/
  | closed {front : Bytes} : right.bytes.head? ≠ some separator →
      left.bytes = front ++ [separator] →
      Joined left right ⟨front ++ separator :: right.bytes⟩
  /-- A separator is put between the parts. -/
  | separated {front : Bytes} {last : UInt8} : right.bytes.head? ≠ some separator →
      left.bytes = front ++ [last] → last ≠ separator →
      Joined left right ⟨left.bytes ++ separator :: right.bytes⟩

theorem needsSeparator_of_concat {front : Bytes} {last : UInt8} (ends : left.bytes = front ++ [last]) :
    left.needsSeparator = (last != separator) := by
  rw [needsSeparator, ends, List.getLast?_concat]

theorem join_of_relative (left : Path) (relative : right.bytes.head? ≠ some separator) :
    left.join right =
      if left.needsSeparator then ⟨left.bytes ++ separator :: right.bytes⟩
      else ⟨left.bytes ++ right.bytes⟩ := by
  rw [join, if_neg (mt isAbsolute_iff.1 relative)]

theorem Joined.join_eq (joined : Joined left right whole) : left.join right = whole := by
  cases joined with
  | replaced absolute => exact join_of_isAbsolute left (isAbsolute_iff.2 absolute)
  | first relative empty => simp [join_of_relative left relative, needsSeparator, empty]
  | closed relative ends =>
      simp [join_of_relative left relative, needsSeparator_of_concat ends, ends]
  | separated relative ends open_ =>
      simp [join_of_relative left relative, needsSeparator_of_concat ends, open_]

theorem joined_join (left right : Path) : Joined left right (left.join right) := by
  by_cases absolute : right.bytes.head? = some separator
  · rw [join_of_isAbsolute left (isAbsolute_iff.2 absolute)]
    exact .replaced absolute
  · rw [join_of_relative left absolute]
    rcases List.eq_nil_or_concat' left.bytes with empty | ⟨front, last, ends⟩
    · simpa [needsSeparator, empty] using Joined.first absolute empty
    · rw [needsSeparator_of_concat ends]
      by_cases closes : last = separator
      · subst closes
        simpa [ends] using Joined.closed absolute ends
      · simpa [closes] using Joined.separated absolute ends closes

/-- Joining is what the cases say. -/
theorem joined_iff_join : Joined left right whole ↔ left.join right = whole := by
  constructor
  · exact Joined.join_eq
  · rintro rfl
    exact joined_join left right

end Path

/-! ## Texts that begin with a separator -/

theorem Bytes.ofText_eq_flatMap (text : String) :
    ofText text = text.toList.flatMap String.utf8EncodeChar := by
  have spelled : text.toByteArray = text.toList.utf8Encode := by
    conv => lhs; rw [← String.ofList_toList (s := text)]
    rfl
  rw [ofText_eq_data, spelled]
  simp [List.utf8Encode]

/-- Only the separator has an encoding that begins with its byte. -/
theorem head?_utf8EncodeChar (c : Char) :
    (String.utf8EncodeChar c).head? = some Path.separator ↔ c = '/' := by
  have code : c = '/' ↔ c.val.toNat = 47 := by
    rw [← Char.val_inj, ← UInt32.toNat_inj]
    rfl
  have byte (value : Nat) : UInt8.ofNat value = Path.separator ↔ value % 256 = 47 := by
    rw [← UInt8.toNat_inj, UInt8.toNat_ofNat']
    rfl
  rw [code]
  unfold String.utf8EncodeChar
  generalize c.val.toNat = value
  dsimp only
  -- Every byte that begins a longer encoding is above the separator.
  repeat' split
  all_goals
    rw [List.head?_cons, Option.some_inj, byte]
    omega

theorem Path.isAbsolute_ofText {text : String} :
    (ofText text).isAbsolute = true ↔ ∃ rest, text.toList = '/' :: rest := by
  rw [isAbsolute_iff, ofText, Bytes.ofText_eq_flatMap]
  cases text.toList with
  | nil => simp
  | cons c rest =>
      simp [List.head?_append, head?_utf8EncodeChar]

end LineShell
