/-
# LineShell.Host.Store -- the files of a system as a table of nodes

Every file is a node with a number that it keeps for ever.  Directories name other
nodes and know the directory above them; a node that no directory names any more
stays in the table, since a process may still hold it.  `Store.child?` is the one
view of a directory.
-/
import LineShell.Path

namespace LineShell

set_option autoImplicit false

/-- The number of a node. -/
abbrev NodeId := Nat

/-- The programs that a system brings along. -/
inductive Tool where
  /-- The interpreter of scripts. -/
  | interpreter
  /-- The program that copies files to its output. -/
  | concatenate
  deriving DecidableEq, Repr

/-- A file that shows something of the process that opens it. -/
inductive ProcessFile where
  | arguments
  | environment
  deriving DecidableEq, Repr

/-- What was written into a pipe and not yet read, and how often either side has been opened. -/
structure Channel where
  pending : Bytes
  readersSeen : Nat
  writersSeen : Nat
  deriving DecidableEq

/-- A name in a directory. -/
structure DirectoryEntry where
  name : Bytes
  node : NodeId
  deriving DecidableEq

/-- What a node is. -/
inductive Content where
  | directory (parent : NodeId) (entries : List DirectoryEntry)
  | file (bytes : ByteArray)
  | link (target : Bytes)
  | channel (channel : Channel)
  /-- Reading gives nothing and what is written is lost. -/
  | sink
  | tool (tool : Tool)
  | process (file : ProcessFile)

/-- A node: what it is, and its permission bits. -/
structure Node where
  content : Content
  mode : Nat

namespace Node

/-- Whether anybody may execute the node. -/
def isExecutable (node : Node) : Bool :=
  node.mode &&& 0o111 != 0

end Node

/-- All nodes by number. -/
structure Store where
  nodes : Array Node

namespace Store

/-- The number of the directory that absolute paths start at. -/
def rootId : NodeId := 0

/-- A store with an empty directory at the top. -/
def empty : Store :=
  ⟨#[⟨.directory rootId [], 0o755⟩]⟩

/-- The node with a number; an unused number is an empty file without permissions. -/
def node (store : Store) (id : NodeId) : Node :=
  store.nodes.getD id ⟨.file .empty, 0⟩

def content (store : Store) (id : NodeId) : Content :=
  (store.node id).content

/-- Give a number another node. -/
def replace (store : Store) (id : NodeId) (node : Node) : Store :=
  ⟨store.nodes.setIfInBounds id node⟩

/-- Change what a node is and keep its permissions. -/
def setContent (store : Store) (id : NodeId) (content : Content) : Store :=
  store.replace id { store.node id with content := content }

/-- Add a node that no directory names. -/
def allocate (store : Store) (node : Node) : NodeId × Store :=
  (store.nodes.size, ⟨store.nodes.push node⟩)

/-- The names in a directory; nothing when the node is no directory. -/
def entries? (store : Store) (id : NodeId) : Option (List DirectoryEntry) :=
  match store.content id with
  | .directory _ entries => some entries
  | _ => none

def isDirectory (store : Store) (id : NodeId) : Bool :=
  (store.entries? id).isSome

/-- The directory above a directory. -/
def parent (store : Store) (id : NodeId) : NodeId :=
  match store.content id with
  | .directory parent _ => parent
  | _ => rootId

/-- The node that a directory names. -/
def child? (store : Store) (directory : NodeId) (name : Bytes) : Option NodeId :=
  ((store.entries? directory).bind fun entries => entries.find? fun entry => entry.name = name).map
    DirectoryEntry.node

/-- Change the names in a directory. -/
def mapEntries (store : Store) (directory : NodeId)
    (change : List DirectoryEntry → List DirectoryEntry) : Store :=
  match store.content directory with
  | .directory parent entries => store.setContent directory (.directory parent (change entries))
  | _ => store

/-- Take a name out of a directory. -/
def detach (store : Store) (directory : NodeId) (name : Bytes) : Store :=
  store.mapEntries directory fun entries => entries.filter fun entry => entry.name ≠ name

/-- Name a node in a directory, in place of what had the name. -/
def attach (store : Store) (directory : NodeId) (name : Bytes) (id : NodeId) : Store :=
  store.mapEntries directory fun entries =>
    entries.filter (fun entry => entry.name ≠ name) ++ [⟨name, id⟩]

/-- Add a node under a name. -/
def add (store : Store) (directory : NodeId) (name : Bytes) (node : Node) : NodeId × Store :=
  let (id, store) := store.allocate node
  (id, store.attach directory name id)

/-- Add a directory under a name. -/
def addDirectory (store : Store) (directory : NodeId) (name : Bytes) : NodeId × Store :=
  store.add directory name ⟨.directory directory [], 0o755⟩

/-- The name of a directory in the directory above it. -/
def nameInParent? (store : Store) (id : NodeId) : Option Bytes :=
  ((store.entries? (store.parent id)).bind fun entries =>
    entries.find? fun entry => entry.node = id).map DirectoryEntry.name

/-- The names that lead from the top to a directory, in front of those in `below`. -/
def namesTo? (store : Store) : Nat → NodeId → List Bytes → Option (List Bytes)
  | 0, _, _ => none
  | depth + 1, id, below =>
      if id = rootId then some below
      else
        match store.nameInParent? id with
        | none => none
        | some name => store.namesTo? depth (store.parent id) (name :: below)

/-- An absolute path with these names. -/
def absolute (names : List Bytes) : Path :=
  if names.isEmpty then ⟨[Path.separator]⟩
  else ⟨names.flatMap fun name => Path.separator :: name⟩

/-- The path of a directory without links; there is none when the directory was removed.  No chain of
directories is longer than the table. -/
def pathOf? (store : Store) (directory : NodeId) : Option Path :=
  (store.namesTo? store.nodes.size directory []).map absolute

end Store

end LineShell
