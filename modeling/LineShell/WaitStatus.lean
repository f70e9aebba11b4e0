/-
# LineShell.WaitStatus -- what a wait reports about a child

A child is known by a positive number.  Only two statuses are final: the child left with a
code, or a signal killed it.  `WaitStatus.code` gives the exit code of a final status, with a
signal counted from 128 upwards, and nothing for a child that is still around.
-/

namespace LineShell

set_option autoImplicit false

/-- The number by which the system knows a process.  It is positive: a wait for 0 or a negative number
is one for a whole group. -/
@[ext] structure Pid where
  number : Nat
  positive : 0 < number
  deriving DecidableEq, Repr

namespace Pid

instance (number : Nat) : OfNat Pid (number + 1) := ⟨⟨number + 1, number.succ_pos⟩⟩

instance : ToString Pid := ⟨fun pid => toString pid.number⟩

/-- A number as one of a process. -/
def ofNat? (number : Nat) : Option Pid :=
  if positive : 0 < number then some ⟨number, positive⟩ else none

/-- The number after this one. -/
def next (pid : Pid) : Pid :=
  ⟨pid.number + 1, pid.number.succ_pos⟩

end Pid

/-- The report of a successful wait. -/
inductive WaitStatus where
  | exited (code : Int)
  | signaled (signal : Nat) (core : Bool)
  | stopped (signal : Nat)
  | continued
  | stillAlive
  deriving DecidableEq, Repr

namespace WaitStatus

/-- The exit code of a child that is gone. -/
def code : WaitStatus → Option Int
  | .exited code => some code
  | .signaled signal _ => some (128 + signal)
  | _ => none

end WaitStatus

end LineShell
