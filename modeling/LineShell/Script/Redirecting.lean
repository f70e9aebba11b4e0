/-
# LineShell.Script.Redirecting -- changing where descriptors lead, for a while

Before a descriptor is changed its file is copied to a descriptor from 10 upwards,
so that it can be put back; a descriptor that was closed is closed again.
-/
import LineShell.Script.Expansion

namespace LineShell.Script

set_option autoImplicit false

/-- A changed descriptor, and where its file is kept if it had one. -/
structure Kept where
  descriptor : Descriptor
  copy : Option Descriptor
  deriving DecidableEq, Repr

namespace Redirecting

/-- Files that are put back later are kept from here upwards. -/
def firstAside : Descriptor := 10

/-- Keep the file of a descriptor. -/
def keep (descriptor : Descriptor) : Run Kept := do
  match ← Run.ask (.duplicateFrom descriptor firstAside) with
  | .error _ => return ⟨descriptor, none⟩
  | .ok copy =>
      modify fun state => { state with aside := copy :: state.aside }
      return ⟨descriptor, some copy⟩

/-- Put the file of a descriptor back. -/
def putBack (kept : Kept) : Run Unit := do
  match kept.copy with
  | none =>
      let _ ← Run.ask (.entry (.close kept.descriptor))
  | some copy =>
      let _ ← Run.ask (.entry (.duplicate copy kept.descriptor))
      let _ ← Run.ask (.entry (.close copy))
      modify fun state => { state with aside := state.aside.filter (· ≠ copy) }

/-- Put several back, the last changed first; the list has the last one first. -/
def putAllBack : List Kept → Run Unit
  | [] => return ()
  | last :: earlier => do
      putBack last
      putAllBack earlier

/-- Let a descriptor be the file of another one. -/
def copyFrom (descriptor : Descriptor) (target : Text) : Run Unit := do
  if target = ['-'] then
    let _ ← Run.ask (.entry (.close descriptor))
  else if Text.isNumber target then
    let source := Text.decimal target
    if source ≠ descriptor then
      match ← Run.ask (.entry (.duplicate source descriptor)) with
      | .ok () => return ()
      | .error errno => Run.fail none (target ++ Text.ofString (": " ++ errno.systemText))
  else Run.fail none (Text.ofString "Syntax error: Bad fd number")

/-- Open a file as a descriptor. -/
def openAs (descriptor : Descriptor) (file : Text) (opening : Opening) : Run Unit := do
  match ← Run.ask (.openFile ⟨Text.toBytes file⟩ opening) with
  | .ok opened =>
      if opened ≠ descriptor then
        let _ ← Run.ask (.entry (.duplicate opened descriptor))
        let _ ← Run.ask (.entry (.close opened))
  | .error errno =>
      let (verb, trouble) :=
        if opening = .read then ("cannot open ", FileTrouble.opening)
        else ("cannot create ", FileTrouble.making)
      Run.fail none (Text.ofString verb ++ file ++ Text.ofString ": " ++ trouble.message errno)

/-- Let a descriptor read a text. -/
def readFrom (descriptor : Descriptor) (text : Text) : Run Unit := do
  match ← Run.ask .pipe with
  | .error errno => Run.fail none (Text.ofString ("Pipe call failed: " ++ errno.systemText))
  | .ok (reading, writing) =>
      let _ ← Run.act (Action.writeAll writing (Text.toBytes text))
      let _ ← Run.ask (.entry (.close writing))
      if reading ≠ descriptor then
        let _ ← Run.ask (.entry (.duplicate reading descriptor))
        let _ ← Run.ask (.entry (.close reading))

/-- Make one redirection. -/
def make (redirection : Redirection) : Run Unit := do
  let target ← Expansion.text redirection.target
  match redirection.kind with
  | .read => openAs redirection.descriptor target .read
  | .write => openAs redirection.descriptor target .truncate
  | .append => openAs redirection.descriptor target .append
  | .readWrite => openAs redirection.descriptor target .readWrite
  | .duplicate => copyFrom redirection.descriptor target
  | .document => readFrom redirection.descriptor target

/-- Make redirections for good. -/
def makeAll : List Redirection → Run Unit
  | [] => return ()
  | first :: rest => do
      make first
      makeAll rest

/-- Make redirections that are put back later; nothing, and nothing changed, when one fails. -/
def makeKept : List Redirection → List Kept → Run (Option (List Kept))
  | [], kept => return some kept
  | first :: rest, kept => do
      let last ← keep first.descriptor
      match ← ExceptT.lift (make first).run with
      | .ok () => makeKept rest (last :: kept)
      | .error .mistake =>
          putAllBack (last :: kept)
          return none
      | .error stop => throw stop

/-- Run steps under redirections; nothing when one of these fails. -/
def around {α : Type} (redirections : List Redirection) (steps : Run α) : Run (Option α) := do
  match ← makeKept redirections [] with
  | none => return none
  | some kept => Run.afterwards (some <$> steps) (putAllBack kept)

end Redirecting

end LineShell.Script
