/-
# LineShell.Host.Walk -- which node a path leads to

A walk takes one step after the other.  Every step needs a directory to start
from.  A symbolic link in the middle is replaced by the steps of its target; at the
end of the path that is up to the caller.  At most 40 links are followed, so a walk
ends: each step either shortens the path or uses up a link.

A trailing separator asks for a directory.  It is a step of its own, because a
file that may be created cannot have one.
-/
import LineShell.Errno
import LineShell.Host.Store

namespace LineShell

set_option autoImplicit false

/-- One step of a walk. -/
inductive Step where
  | into (name : Bytes)
  | up
  | here
  /-- The separator at the end of a path. -/
  | trailing
  deriving DecidableEq

namespace Step

/-- Cut at every separator; empty pieces stay. -/
def cut : Bytes → List Bytes
  | [] => [[]]
  | byte :: rest =>
      if byte = Path.separator then [] :: cut rest
      else
        match cut rest with
        | [] => [[byte]]
        | first :: later => (byte :: first) :: later

/-- The step for one piece of a path. -/
def ofPiece (piece : Bytes) : Step :=
  if piece = Bytes.ofText "." then .here
  else if piece = Bytes.ofText ".." then .up
  else .into piece

/-- Whether a path ends with a separator after a name. -/
def endsOpen (path : Bytes) : Bool :=
  path.getLast? == some Path.separator

/-- The steps of a path. -/
def ofPath (path : Bytes) : List Step :=
  let steps := ((cut path).filter fun piece => !piece.isEmpty).map ofPiece
  if endsOpen path then steps ++ [.trailing] else steps

end Step

/-- The end of a walk: the node, or the directory and the name where a node is missing. -/
inductive Place where
  /-- `name` in `directory` is `node`. -/
  | named (directory : NodeId) (name : Bytes) (node : NodeId)
  /-- `directory` has no such name. -/
  | missing (directory : NodeId) (name : Bytes)
  /-- The walk ended in a directory without naming it. -/
  | directory (node : NodeId)
  deriving DecidableEq

namespace Place

def node? : Place → Option NodeId
  | .named _ _ node => some node
  | .missing _ _ => none
  | .directory node => some node

end Place

/-- What a walk is for. -/
structure Purpose where
  /-- Whether a link at the end is followed. -/
  followLast : Bool
  /-- Whether a missing file would be created, which forbids a trailing separator. -/
  creates : Bool
  deriving DecidableEq, Repr

namespace Walk

/-- The greatest length of a name. -/
def nameLimit : Nat := 255

/-- A path has to be shorter than this. -/
def pathLimit : Nat := 4096

/-- How many links a walk may follow. -/
def linkLimit : Nat := 40

/-- Where a path starts. -/
def start (directory : NodeId) (path : Bytes) : NodeId :=
  if Path.isAbsolute ⟨path⟩ then Store.rootId else directory

/-- Take the steps from a directory. -/
def steps (store : Store) (purpose : Purpose) (links : Nat) (here : NodeId) :
    List Step → Except Errno Place
  | [] => .ok (.directory here)
  | step :: rest =>
      match store.entries? here, step with
      | none, _ => .error .ENOTDIR
      | some _, .here => steps store purpose links here rest
      | some _, .trailing => steps store purpose links here rest
      | some _, .up => steps store purpose links (store.parent here) rest
      | some _, .into name =>
          if nameLimit < name.length then .error .ENAMETOOLONG
          else if purpose.creates && rest == [.trailing] then .error .EISDIR
          else
            match store.child? here name with
            | none => if rest.isEmpty then .ok (.missing here name) else .error .ENOENT
            | some node =>
                match store.content node with
                | .link target =>
                    if rest.isEmpty && !purpose.followLast then .ok (.named here name node)
                    else
                      match links with
                      | 0 => .error .ELOOP
                      | left + 1 =>
                          steps store purpose left (start here target) (Step.ofPath target ++ rest)
                | _ =>
                    if rest.isEmpty then .ok (.named here name node)
                    else steps store purpose links node rest
termination_by path => (links, path.length)

/-- Walk a path of any length from a directory. -/
def unlimited (store : Store) (purpose : Purpose) (directory : NodeId) (path : Path) :
    Except Errno Place :=
  if path.bytes.isEmpty then .error .ENOENT
  else steps store purpose linkLimit (start directory path.bytes) (Step.ofPath path.bytes)

/-- Walk a path from a directory. -/
def place (store : Store) (purpose : Purpose) (directory : NodeId) (path : Path) :
    Except Errno Place :=
  if pathLimit ≤ path.bytes.length then .error .ENAMETOOLONG
  else unlimited store purpose directory path

/-- The node that a walk has to find. -/
def existing : Except Errno Place → Except Errno NodeId
  | .error errno => .error errno
  | .ok place =>
      match place.node? with
      | some node => .ok node
      | none => .error .ENOENT

/-- Follow every link. -/
def following : Purpose :=
  ⟨true, false⟩

/-- The node that a path leads to. -/
def find (store : Store) (directory : NodeId) (path : Path) : Except Errno NodeId :=
  existing (place store following directory path)

/-- The node of the path itself, also when it is a link. -/
def findLink (store : Store) (directory : NodeId) (path : Path) : Except Errno NodeId :=
  existing (place store ⟨false, false⟩ directory path)

/-- The directory that a path leads to. -/
def findDirectory (store : Store) (directory : NodeId) (path : Path) : Except Errno NodeId :=
  match find store directory path with
  | .error errno => .error errno
  | .ok node => if store.isDirectory node then .ok node else .error .ENOTDIR

/-- The absolute path without links that leads to the same node. -/
def canonical (store : Store) (directory : NodeId) (path : Path) : Except Errno Path :=
  match unlimited store following directory path with
  | .error errno => .error errno
  | .ok (.missing _ _) => .error .ENOENT
  | .ok (.directory node) => (store.pathOf? node).elim (.error .ENOENT) .ok
  | .ok (.named above name node) =>
      if store.isDirectory node then (store.pathOf? node).elim (.error .ENOENT) .ok
      else (store.pathOf? above).elim (.error .ENOENT) fun parent => .ok (parent.join ⟨name⟩)

end Walk

end LineShell
