/-
# LineShell.Bytes -- byte strings, the text they spell, and the ones a system call can take

File names, variables and file contents are byte strings.  Two readings of them
as text are needed: the exact one, which exists only for well-formed UTF-8, and
the one for messages, in which every malformed piece becomes U+FFFD.  Both come
from one step function, `Bytes.decodeHead`, which reads the longest prefix that
is either one scalar value or one malformed piece.

A system call takes a byte string up to its first NUL, so a string that holds a
NUL cannot be passed at all.  `NulFree` is the type of those that can;
`NulFree.ofBytes` refuses the others with the position of the first NUL.
-/

namespace LineShell

set_option autoImplicit false

/-- A byte string of any content. -/
abbrev Bytes := List UInt8

namespace Bytes

/-- The bytes that spell a text in UTF-8. -/
def ofText (text : String) : Bytes :=
  text.toUTF8.toList

theorem toList_loop (bytes : ByteArray) (i : Nat) (read : List UInt8) :
    ByteArray.toList.loop bytes i read = read.reverse ++ bytes.data.toList.drop i := by
  fun_induction ByteArray.toList.loop bytes i read with
  | case1 i read inside ih =>
      have bound : i < bytes.data.toList.length := inside
      have next : bytes.data.toList.drop i = bytes.get! i :: bytes.data.toList.drop (i + 1) := by
        have here : bytes.get! i = bytes.data[i]! := rfl
        rw [List.drop_eq_getElem_cons bound, here, getElem!_pos bytes.data i inside]
        simp
      rw [ih, next]
      simp
  | case2 i read outside =>
      have bound : bytes.data.toList.length ≤ i := Nat.le_of_not_lt outside
      simp [List.drop_eq_nil_of_le bound]

theorem ofText_eq_data (text : String) : ofText text = text.toByteArray.data.toList := by
  rw [ofText, String.toUTF8_eq_toByteArray, ByteArray.toList, toList_loop]
  rfl

theorem ofText_append (text other : String) : ofText (text ++ other) = ofText text ++ ofText other := by
  simp only [ofText_eq_data, String.toByteArray_append, ByteArray.data_append, Array.toList_append]

/-- The bytes of a text that is written with ASCII characters only, such as a message frame. -/
instance : Coe String Bytes := ⟨ofText⟩

/-! ## Reading UTF-8 -/

/-- One step of decoding: the scalar value read, or `none` for a malformed piece, and the rest. -/
structure Decoded where
  scalar : Option Char
  rest : Bytes

/-- A continuation byte is `10xxxxxx`. -/
def isContinuation (byte : UInt8) : Bool :=
  0x80 ≤ byte && byte ≤ 0xBF

/-- Six payload bits of a continuation byte appended to `high`. -/
def extend (high : Nat) (byte : UInt8) : Nat :=
  high * 64 + (byte.toNat - 0x80)

/-- Read `count` more continuation bytes; a malformed piece ends before the first byte that is none. -/
def decodeTail : Nat → Nat → Bytes → Decoded
  | 0, value, rest => ⟨some (Char.ofNat value), rest⟩
  | count + 1, value, byte :: rest =>
      if isContinuation byte then decodeTail count (extend value byte) rest
      else ⟨none, byte :: rest⟩
  | _ + 1, _, [] => ⟨none, []⟩

/-- Read a sequence whose second byte has to lie in `low … high`, then `count` continuation bytes.
The narrow range excludes overlong forms, surrogates and values above U+10FFFF. -/
def decodeSecond (lead : Nat) (low high : UInt8) (count : Nat) : Bytes → Decoded
  | byte :: rest =>
      if low ≤ byte && byte ≤ high then decodeTail count (extend lead byte) rest
      else ⟨none, byte :: rest⟩
  | [] => ⟨none, []⟩

/-- Decode the sequence that `byte` leads.  A byte that leads none is a malformed piece by itself. -/
def decodeHead (byte : UInt8) (rest : Bytes) : Decoded :=
  if byte < 0x80 then ⟨some (Char.ofNat byte.toNat), rest⟩
  else if byte < 0xC2 then ⟨none, rest⟩
  else if byte < 0xE0 then decodeSecond (byte.toNat - 0xC0) 0x80 0xBF 0 rest
  else if byte = 0xE0 then decodeSecond 0 0xA0 0xBF 1 rest
  else if byte = 0xED then decodeSecond 0xD 0x80 0x9F 1 rest
  else if byte < 0xF0 then decodeSecond (byte.toNat - 0xE0) 0x80 0xBF 1 rest
  else if byte = 0xF0 then decodeSecond 0 0x90 0xBF 2 rest
  else if byte < 0xF4 then decodeSecond (byte.toNat - 0xF0) 0x80 0xBF 2 rest
  else if byte = 0xF4 then decodeSecond 4 0x80 0x8F 2 rest
  else ⟨none, rest⟩

theorem decodeTail_rest_length (count value : Nat) (bytes : Bytes) :
    (decodeTail count value bytes).rest.length ≤ bytes.length := by
  induction count generalizing value bytes with
  | zero => simp [decodeTail]
  | succ count ih =>
      cases bytes with
      | nil => simp [decodeTail]
      | cons byte rest =>
          simp only [decodeTail]
          split
          · exact Nat.le_succ_of_le (ih _ _)
          · simp

theorem decodeSecond_rest_length (lead : Nat) (low high : UInt8) (count : Nat) (bytes : Bytes) :
    (decodeSecond lead low high count bytes).rest.length ≤ bytes.length := by
  cases bytes with
  | nil => simp [decodeSecond]
  | cons byte rest =>
      simp only [decodeSecond]
      split
      · exact Nat.le_succ_of_le (decodeTail_rest_length _ _ _)
      · simp

theorem decodeHead_rest_length (byte : UInt8) (rest : Bytes) :
    (decodeHead byte rest).rest.length ≤ rest.length := by
  unfold decodeHead
  repeat' split
  all_goals first
    | exact Nat.le_refl _
    | exact decodeSecond_rest_length _ _ _ _ _

/-- The scalar values and malformed pieces of a byte string, in order. -/
def pieces : Bytes → List (Option Char)
  | [] => []
  | byte :: rest => (decodeHead byte rest).scalar :: pieces (decodeHead byte rest).rest
termination_by bytes => bytes.length
decreasing_by
  simp only [List.length_cons]
  exact Nat.lt_succ_of_le (decodeHead_rest_length byte rest)

/-- The text that a byte string spells, if it is well-formed UTF-8. -/
def text? (bytes : Bytes) : Option String :=
  ((pieces bytes).mapM id).map String.ofList

/-- The text for a message: every malformed piece is shown as U+FFFD. -/
def shown (bytes : Bytes) : String :=
  String.ofList ((pieces bytes).map fun piece => piece.getD '\uFFFD')

/-! ## Lines -/

/-- The newline byte. -/
def newline : UInt8 := 0x0A

/-- Cut after the first newline: the first line with its newline, and the rest. -/
def cutLine (bytes : Bytes) : Bytes × Bytes :=
  let head := bytes.takeWhile (· ≠ newline)
  match bytes.dropWhile (· ≠ newline) with
  | [] => (head, [])
  | _ :: rest => (head ++ [newline], rest)

end Bytes

/-- A byte string without a NUL: what a system call can take. -/
structure NulFree where
  bytes : Bytes
  noNul : 0 ∉ bytes
  deriving DecidableEq

/-- A NUL stands in a string for a system call; `position` is the first one's. -/
structure NulError where
  position : Nat
  deriving DecidableEq, Repr

namespace NulError

def message (error : NulError) : String :=
  s!"nul byte found in provided data at position: {error.position}"

end NulError

namespace NulFree

/-- Accept a byte string for system calls, or report its first NUL. -/
def ofBytes (bytes : Bytes) : Except NulError NulFree :=
  match found : bytes.findIdx? (· == 0) with
  | some position => .error ⟨position⟩
  | none => .ok ⟨bytes, by
      intro inside
      have clean := List.findIdx?_eq_none_iff.1 found 0 inside
      simp at clean⟩

/-- A byte string is accepted as it is. -/
theorem bytes_of_ofBytes {bytes : Bytes} {accepted : NulFree}
    (clean : ofBytes bytes = .ok accepted) : accepted.bytes = bytes := by
  unfold ofBytes at clean
  split at clean
  · cases clean
  · obtain rfl := Except.ok.inj clean
    rfl

/-- What a system call sees of a byte string: the bytes before the first NUL. -/
def clip (bytes : Bytes) : NulFree :=
  ⟨bytes.takeWhile (· ≠ 0), by
    intro inside
    have kept := List.all_eq_true.1 List.all_takeWhile 0 inside
    simp at kept⟩

end NulFree

end LineShell
