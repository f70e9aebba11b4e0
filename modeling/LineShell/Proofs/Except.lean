/-
# LineShell.Proofs.Except -- taking results apart

A result that was put together from several steps is a value exactly when every
step gave one, and an error exactly when some step gave it.  These equivalences
stand for unfolding the steps.
-/

namespace LineShell

set_option autoImplicit false

variable {ε α β : Type}

theorem bind_eq_ok_iff {first : Except ε α} {rest : α → Except ε β} {value : β} :
    (first >>= rest) = .ok value ↔ ∃ middle, first = .ok middle ∧ rest middle = .ok value := by
  cases first with
  | error error => simp [bind, Except.bind]
  | ok middle => simp [bind, Except.bind]

theorem bind_eq_error_iff {first : Except ε α} {rest : α → Except ε β} {error : ε} :
    (first >>= rest) = .error error ↔
      first = .error error ∨ ∃ middle, first = .ok middle ∧ rest middle = .error error := by
  cases first with
  | error error => simp [bind, Except.bind]
  | ok middle => simp [bind, Except.bind]

theorem map_eq_ok_iff {result : Except ε α} {change : α → β} {value : β} :
    result.map change = .ok value ↔ ∃ middle, result = .ok middle ∧ change middle = value := by
  cases result <;> simp [Except.map]

theorem map_eq_error_iff {result : Except ε α} {change : α → β} {error : ε} :
    result.map change = .error error ↔ result = .error error := by
  cases result <;> simp [Except.map]

end LineShell
