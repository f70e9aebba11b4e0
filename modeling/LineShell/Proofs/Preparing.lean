/-
# LineShell.Proofs.Preparing -- what an image keeps of its command

Every string of an image has been checked and is otherwise as it was: the directory is
the one of the surroundings, the program is the path that was found, and the files are
those that the command names.
-/
import LineShell.Image
import LineShell.Proofs.Except

namespace LineShell

set_option autoImplicit false

/-- The path that a checked string names. -/
def NulFree.path (file : NulFree) : Path :=
  ⟨file.bytes⟩

theorem NulFree.path_of_ofBytes {asked : Path} {accepted : NulFree}
    (clean : ofBytes asked.bytes = .ok accepted) : accepted.path = asked := by
  rw [path, bytes_of_ofBytes clean]

theorem optional_path {path : Option Path} {file : Option NulFree}
    (checked : Image.optional path = .ok file) : file.map NulFree.path = path := by
  cases path with
  | none =>
      obtain rfl : none = file := Except.ok.inj checked
      rfl
  | some path =>
      obtain ⟨kept, clean, rfl⟩ := map_eq_ok_iff.1 checked
      rw [Option.map_some, NulFree.path_of_ofBytes clean]

/-- The image of a command, a program and a context. -/
structure Image.Made (command : Command) (program : Option Path) (context : Context) (image : Image) :
    Prop where
  name : image.name = command.name
  program : image.program.map NulFree.path = program
  context : image.context = context
  stdin : image.stdin.map NulFree.path = command.redirects.stdin
  stdout : image.stdout.map NulFree.path = command.redirects.stdout

theorem Image.made_of_prepare {command : Command} {program : Option Path} {context : Context}
    {image : Image} (prepared : Image.prepare command program context = .ok image) :
    image.Made command program context := by
  simp only [Image.prepare, bind_eq_ok_iff] at prepared
  obtain ⟨_, found, _, input, _, output, _, _, made⟩ := prepared
  cases made
  exact ⟨rfl, optional_path found, rfl, optional_path input, optional_path output⟩

theorem Context.directory_of_prepare {surroundings : Surroundings} {context : Context}
    (prepared : Context.prepare surroundings = .ok context) :
    context.directory.path = surroundings.directory := by
  simp only [Context.prepare, bind_eq_ok_iff] at prepared
  obtain ⟨_, clean, _, _, made⟩ := prepared
  cases made
  exact NulFree.path_of_ofBytes clean

end LineShell
