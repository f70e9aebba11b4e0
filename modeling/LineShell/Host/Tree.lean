/-
# LineShell.Host.Tree -- making and listing files below a directory

Entries are made one after the other, with the directories above them as needed.
A listing has a row for everything below a directory, in the order of the bytes of
the paths; links are shown and not followed.
-/
import LineShell.Host.Walk

namespace LineShell

set_option autoImplicit false

/-- A file to be made. -/
inductive Planting where
  | directory
  | file (contents : Bytes) (mode : Nat)
  | link (target : Bytes)
  | fifo
  deriving DecidableEq

/-- What a listing says about a file. -/
inductive Listed where
  | directory
  | file (contents : Bytes) (mode : Nat)
  | link (target : Bytes)
  | fifo
  deriving DecidableEq

/-- A row of a listing. -/
structure Row where
  path : Bytes
  listed : Listed
  deriving DecidableEq

namespace Store

/-- The directory that a name leads to, made if there is nothing. -/
def makeDirectory (store : Store) (directory : NodeId) (name : Bytes) : NodeId × Store :=
  match Walk.findDirectory store directory ⟨name⟩ with
  | .ok found => (found, store)
  | .error _ => store.addDirectory directory name

/-- The directory that names lead to, made as needed. -/
def makeDirectories (store : Store) (directory : NodeId) : List Bytes → NodeId × Store
  | [] => (directory, store)
  | name :: rest =>
      let (next, store) := store.makeDirectory directory name
      store.makeDirectories next rest

/-- The names of a path. -/
def namesOf (path : Bytes) : List Bytes :=
  (Step.cut path).filter fun name => !name.isEmpty

/-- Make a file in a directory, in place of what has the name; a file is written over, also through a
link. -/
def plantAt (store : Store) (directory : NodeId) (name : Bytes) : Planting → Store
  | .directory => (store.makeDirectory directory name).2
  | .link target => (store.add directory name ⟨.link target, 0o777⟩).2
  | .fifo => (store.add directory name ⟨.channel ⟨[], 0, 0⟩, 0o644⟩).2
  | .file contents mode =>
      let node : Node := ⟨.file ⟨contents.toArray⟩, mode⟩
      match Walk.place store ⟨true, true⟩ directory ⟨name⟩ with
      | .ok (.named _ _ id) => store.replace id node
      | .ok (.missing above name) => (store.add above name node).2
      | _ => store

/-- Make a file at a path, which starts at the top when it is absolute. -/
def plant (store : Store) (directory : NodeId) (path : Bytes) (planting : Planting) : Store :=
  let names := namesOf path
  match names.getLast? with
  | none => store
  | some name =>
      let (above, store) := store.makeDirectories (Walk.start directory path) names.dropLast
      store.plantAt above name planting

/-- Remove a file, a link or a whole directory. -/
def remove (store : Store) (directory : NodeId) (path : Path) : Store :=
  match Walk.place store ⟨false, false⟩ directory path with
  | .ok (.named above name _) => store.detach above name
  | _ => store

/-- What a listing says about a node, if anything. -/
def listed? (store : Store) (id : NodeId) : Option Listed :=
  match store.content id with
  | .directory _ _ => some .directory
  | .file bytes => some (.file bytes.toList (store.node id).mode)
  | .link target => some (.link target)
  | .channel _ => some .fifo
  | _ => none

/-- The rows below a directory, at most `depth` levels, in the order of the directories. -/
def rowsBelow (store : Store) : Nat → Path → NodeId → List Row
  | 0, _, _ => []
  | depth + 1, path, directory =>
      ((store.entries? directory).getD []).flatMap fun entry =>
        let below := path.join ⟨entry.name⟩
        let own := (store.listed? entry.node).toList.map fun listed => ⟨below.bytes, listed⟩
        own ++ store.rowsBelow depth below entry.node

/-- Whether one byte string comes before another or is the same. -/
def notAfter : Bytes → Bytes → Bool
  | [], _ => true
  | _ :: _, [] => false
  | a :: left, b :: right => if a = b then notAfter left right else a < b

/-- The listing of the directory that a path leads to; a path to something else has no rows. -/
def listing (store : Store) (directory : NodeId) (path : Path) : List Row :=
  let found :=
    if path.bytes.isEmpty then .ok directory else Walk.findDirectory store directory path
  match found with
  | .error _ => []
  | .ok id =>
      (store.rowsBelow store.nodes.size path id).mergeSort fun first second =>
        notAfter first.path second.path

/-- A system's own files: the tools, the empty device and the files about processes. -/
def standard : Store :=
  let text (string : String) : Bytes := Bytes.ofText string
  let (usr, store) := empty.makeDirectories rootId [text "usr", text "bin"]
  let (_, store) := store.add usr (text "sh") ⟨.tool .interpreter, 0o755⟩
  let (_, store) := store.add usr (text "cat") ⟨.tool .concatenate, 0o755⟩
  let (_, store) := store.add rootId (text "bin") ⟨.link (text "usr/bin"), 0o777⟩
  let (devices, store) := store.addDirectory rootId (text "dev")
  let (_, store) := store.add devices (text "null") ⟨.sink, 0o666⟩
  let (own, store) := store.makeDirectories rootId [text "proc", text "self"]
  let (_, store) := store.add own (text "environ") ⟨.process .environment, 0o400⟩
  let (_, store) := store.add own (text "cmdline") ⟨.process .arguments, 0o444⟩
  (store.addDirectory rootId (text "tmp")).2

end Store

end LineShell
