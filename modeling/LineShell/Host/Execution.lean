/-
# LineShell.Host.Execution -- which tool a file that is executed leads to

A file whose first two bytes are `#!` names its interpreter in its first line, with
one argument at most; the interpreter gets the file as a further argument.  An
interpreter may be such a file itself, up to a depth.  Every other file that is no
tool has an unknown format.
-/
import LineShell.Host.Walk

namespace LineShell

set_option autoImplicit false

/-- The first line of a file that names its interpreter. -/
structure Shebang where
  interpreter : Bytes
  argument : Option Bytes
  deriving DecidableEq

namespace Shebang

/-- How many bytes of a file are looked at. -/
def window : Nat := 256

def isBlank (byte : UInt8) : Bool :=
  byte = 0x20 || byte = 0x09

/-- Whether a name ends before the byte. -/
def endsName (byte : UInt8) : Bool :=
  isBlank byte || byte = 0

def dropBlanksAtEnd (bytes : Bytes) : Bytes :=
  (bytes.reverse.dropWhile isBlank).reverse

/-- The line after the two first bytes of a window.  Without a newline the name of the interpreter has to
end within the window. -/
def line? (rest : Bytes) : Option Bytes :=
  if rest.contains Bytes.newline then some (rest.takeWhile (· ≠ Bytes.newline))
  else
    let named := rest.dropWhile isBlank
    if named.any endsName then some rest.dropLast else none

/-- Read the line of an interpreter. -/
def ofLine? (line : Bytes) : Option Shebang :=
  let trimmed := (dropBlanksAtEnd line).dropWhile isBlank
  let name := trimmed.takeWhile fun byte => !endsName byte
  match trimmed with
  | [] => none
  | _ =>
      match trimmed.drop name.length with
      | [] => some ⟨name, none⟩
      | separator :: rest =>
          if separator = 0 then some ⟨name, none⟩
          else some ⟨name, some ((rest.dropWhile isBlank).takeWhile (· ≠ 0))⟩

/-- The bytes of a file that are looked at, filled up with zeros. -/
def windowOf (contents : ByteArray) : Bytes :=
  let start := (contents.extract 0 window).toList
  start ++ List.replicate (window - start.length) 0

/-- The interpreter of a file. -/
def ofFile? (contents : ByteArray) : Option Shebang :=
  match windowOf contents with
  | 0x23 :: 0x21 :: rest => (line? rest).bind ofLine?
  | _ => none

end Shebang

namespace Execution

/-- A string that is handed over has to be shorter than this. -/
def stringLimit : Nat := 131072

/-- How many interpreters may follow one another. -/
def depthLimit : Nat := 5

/-- The content of a file that may be executed. -/
def openFile (store : Store) (directory : NodeId) (file : Path) : Except Errno Content :=
  match Walk.find store directory file with
  | .error errno => .error errno
  | .ok id =>
      let node := store.node id
      match node.content with
      | .file _ => if node.isExecutable then .ok node.content else .error .EACCES
      | .tool _ => if node.isExecutable then .ok node.content else .error .EACCES
      | _ => .error .EACCES

/-- The tool that a content leads to, and its arguments. -/
def follow (store : Store) (directory : NodeId) :
    Nat → Content → Bytes → List Bytes → Except Errno (Tool × List Bytes)
  | _, .tool tool, _, arguments => .ok (tool, arguments)
  | depth, .file contents, file, arguments =>
      match Shebang.ofFile? contents with
      | none => .error .ENOEXEC
      | some shebang =>
          match openFile store directory ⟨shebang.interpreter⟩ with
          | .error errno => .error errno
          | .ok content =>
              match depth with
              | 0 => .error .ELOOP
              | left + 1 =>
                  follow store directory left content shebang.interpreter
                    (shebang.interpreter :: shebang.argument.toList ++ file :: arguments.drop 1)
  | _, _, _, _ => .error .EACCES

/-- The tool that a file leads to, and the arguments that it gets. -/
def resolve (store : Store) (directory : NodeId) (file : Path) (arguments environment : List Bytes) :
    Except Errno (Tool × List Bytes) :=
  match openFile store directory file with
  | .error errno => .error errno
  | .ok content =>
      if (arguments ++ environment).any fun string => stringLimit ≤ string.length then .error .E2BIG
      else follow store directory depthLimit content file.bytes arguments

end Execution

end LineShell
