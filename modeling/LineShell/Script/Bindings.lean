/-
# LineShell.Script.Bindings -- the variables of a script

A variable can be known without having a value, when it was marked for export
before it was set.  Names that occur once keep occurring once: `Bindings.assign`
changes the variable in place or adds it at the end.
-/
import LineShell.Environment
import LineShell.Script.Text

namespace LineShell.Script

set_option autoImplicit false

/-- A variable, and whether programs inherit it. -/
structure Binding where
  name : Text
  value : Option Text
  exported : Bool
  deriving DecidableEq

/-- The variables of a script. -/
abbrev Bindings := List Binding

namespace Bindings

/-- The value of a variable. -/
def value? (bindings : Bindings) (name : Text) : Option Text :=
  (bindings.find? fun binding => binding.name = name).bind Binding.value

/-- Change a variable, which is made up if it is not known. -/
def modify (bindings : Bindings) (name : Text) (change : Binding → Binding) : Bindings :=
  match bindings with
  | [] => [change ⟨name, none, false⟩]
  | first :: rest =>
      if first.name = name then change first :: rest else first :: modify rest name change

/-- Give a variable a value. -/
def assign (bindings : Bindings) (name value : Text) : Bindings :=
  bindings.modify name fun binding => { binding with value := some value }

/-- Have programs inherit a variable. -/
def markExported (bindings : Bindings) (name : Text) : Bindings :=
  bindings.modify name fun binding => { binding with exported := true }

/-- Forget a variable. -/
def unset (bindings : Bindings) (name : Text) : Bindings :=
  bindings.filter fun binding => binding.name ≠ name

/-- Put a variable back to what it was in other bindings. -/
def restore (bindings earlier : Bindings) (name : Text) : Bindings :=
  match earlier.find? fun binding => binding.name = name with
  | some binding => bindings.modify name fun _ => binding
  | none => bindings.unset name

/-- Take over the variables of an environment whose names can be written in a script; of several with one
name the last counts. -/
def inherit (bindings : Bindings) (entries : List Bytes) : Bindings :=
  entries.foldl (fun bindings entry =>
    let text := Text.ofBytes entry
    let name := text.takeWhile (· ≠ '=')
    match text.drop name.length with
    | '=' :: value =>
        if Text.isName name then (bindings.assign name value).markExported name else bindings
    | _ => bindings) bindings

/-- The entries that programs inherit. -/
def entries (bindings : Bindings) : List Bytes :=
  bindings.filterMap fun binding =>
    if binding.exported then binding.value.map fun value => Text.toBytes (binding.name ++ '=' :: value)
    else none

end Bindings

end LineShell.Script
