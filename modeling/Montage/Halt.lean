import Montage.Attempt

/-!
# Computations that stop

A computation fails with an error, which its caller receives. It is stopped for good where the
result of an arithmetic operation does not fit into its word: then there is no answer at all, and
whoever waits for one is stopped as well.
-/

namespace Montage

/-- Why a computation has no value: it fails with an error, or its arithmetic overflows. -/
inductive Halt (ε : Type) where
  | failure (e : ε)
  | overflow
deriving DecidableEq

variable {ε δ α : Type}

/-- The same halt, its error put differently. -/
def Halt.map (f : ε → δ) : Halt ε → Halt δ
  | failure e => failure (f e)
  | overflow => overflow

/-- Two failures are the same if their errors are. -/
theorem Halt.failure_inj {e e' : ε}
    (h : (.error (.failure e) : Except (Halt ε) α) = .error (.failure e')) : e = e' :=
  Halt.failure.inj (Except.error.inj h)

/-- An attempt that cannot overflow, as part of a computation that can. -/
instance : MonadLift (Except ε) (Except (Halt ε)) where
  monadLift attempt := attempt.mapError .failure

/-- What succeeds does so as part of a computation that can overflow. -/
@[simp] theorem liftM_ok (value : α) :
    (liftM (Except.ok value : Except ε α) : Except (Halt ε) α) = .ok value := rfl

/-- What fails does so however its errors are put. -/
theorem mapError_map_eq_failure {f : ε → δ} {x : Except (Halt ε) α} {d : δ} :
    x.mapError (Halt.map f) = .error (.failure d) ↔ ∃ e, x = .error (.failure e) ∧ f e = d := by
  constructor
  · intro h
    rcases x with (e | _) | value
    · exact ⟨e, rfl, Halt.failure_inj h⟩
    · cases h
    · cases h
  · rintro ⟨e, rfl, rfl⟩
    rfl

/-- What the caller of a computation receives. -/
def answer? : Except (Halt ε) α → Option (Except ε α)
  | .ok value => some (.ok value)
  | .error (.failure e) => some (.error e)
  | .error .overflow => none

end Montage
