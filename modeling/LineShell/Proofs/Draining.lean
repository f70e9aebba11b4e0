/-
# LineShell.Proofs.Draining -- a drain goes on until nothing is found

An interrupted wait is the only error that is not final, for a poll
(`interrupted_iff`) and for a blocking wait (`undecided_error_iff`).

The number of polls of a drain is bounded by the number of jobs, which is needed
for the recursion only.  Each poll that finds a job removes it (`pollOnce_yields`),
so the bound is never reached: every larger one gives the same program
(`drainWithin_eq`), and a drain is one poll, followed by another drain if that poll
has found a job (`drain_eq`).
-/
import LineShell.Jobs
import LineShell.Proofs.Assurance

namespace LineShell

set_option autoImplicit false

theorem Job.undecided_ok (status : WaitStatus) : undecided (.ok status) = status.code.isNone := by
  cases final : status.code <;> simp [undecided, verdict, final]

theorem Job.undecided_error_iff {errno : Errno} : undecided (.error errno) = true ↔ errno = .EINTR := by
  cases errno <;> simp [undecided, verdict]

namespace Registry

theorem interrupted_iff {answer : Except Errno WaitStatus} :
    interrupted answer = true ↔ answer = .error .EINTR := by
  rcases answer with errno | status
  · cases errno <;> simp [interrupted]
  · simp [interrupted]

variable {registry : Registry} {limit other : Nat}

/-- A poll that finds a job leaves fewer jobs. -/
def Shortens (registry : Registry) (result : Poll × Registry) : Prop :=
  ∀ pid code, result.1 = .terminated pid code → result.2.length < registry.length

theorem pollFrom_yields (kept rest : Registry) :
    (pollFrom kept rest).Yields (Shortens (kept ++ rest)) := by
  induction rest generalizing kept with
  | nil =>
      intro pid code found
      cases none : kept.isEmpty <;> simp [none] at found
  | cons job rest ih =>
      unfold pollFrom
      rw [Program.yields_bind]
      refine Program.yields_insist fun answer => ?_
      rcases answer with errno | status
      · refine (ih kept).imp fun result shortens pid code found => ?_
        have fewer := shortens pid code found
        simp only [List.length_append, List.length_cons] at fewer ⊢
        omega
      · cases final : status.code with
        | some code => simp [Shortens, final]
        | none => simpa [final] using ih (kept ++ [job])

theorem pollOnce_yields (registry : Registry) : registry.pollOnce.Yields (Shortens registry) :=
  pollFrom_yields [] registry

/-- A bound above the number of jobs makes no difference. -/
theorem drainWithin_eq (enough : registry.length < limit) (also : registry.length < other) :
    drainWithin limit registry = drainWithin other registry := by
  induction limit generalizing registry other with
  | zero => exact absurd enough (Nat.not_lt_zero _)
  | succ limit ih =>
      cases other with
      | zero => exact absurd also (Nat.not_lt_zero _)
      | succ other =>
          unfold drainWithin
          refine Program.bind_congr_of_yields (pollOnce_yields registry) fun result shortens => ?_
          obtain ⟨poll, rest⟩ := result
          cases poll with
          | terminated pid code =>
              have fewer : rest.length < registry.length := shortens pid code rfl
              have same : drainWithin limit rest = drainWithin other rest :=
                ih (by omega) (by omega)
              simp only [same]
          | noneReady => rfl
          | noChildren => rfl

/-- A drain polls, and drains again when it has found a job. -/
theorem drain_eq (registry : Registry) :
    registry.drain = do
      match ← registry.pollOnce with
      | (.terminated pid code, rest) =>
          let (later, left) ← rest.drain
          return (⟨pid, code⟩ :: later, left)
      | (_, rest) => return ([], rest) := by
  rw [drain, drainWithin]
  refine Program.bind_congr_of_yields (pollOnce_yields registry) fun result shortens => ?_
  obtain ⟨poll, rest⟩ := result
  cases poll with
  | terminated pid code =>
      have fewer : rest.length < registry.length := shortens pid code rfl
      have same : drainWithin registry.length rest = rest.drain :=
        drainWithin_eq fewer (Nat.lt_succ_self _)
      simp only [same]
  | noneReady => rfl
  | noChildren => rfl

end Registry

end LineShell
