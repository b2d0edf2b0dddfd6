/-!
# Computations that may fail

When a computation of several steps succeeds. The checks, the readers and the builders are taken
apart by these laws, step by step.
-/

namespace Montage

variable {ε α β γ : Type}

/-- What succeeds in sequence succeeds step by step. -/
theorem exists_of_bind_eq_ok {x : Except ε α} {f : α → Except ε β} {b : β}
    (h : x >>= f = .ok b) : ∃ a, x = .ok a ∧ f a = .ok b := by
  cases x with
  | error e => cases h
  | ok a => exact ⟨a, rfl, h⟩

theorem bind_eq_ok_iff {x : Except ε α} {f : α → Except ε β} {b : β} :
    x >>= f = .ok b ↔ ∃ a, x = .ok a ∧ f a = .ok b := by
  constructor
  · exact exists_of_bind_eq_ok
  · rintro ⟨a, rfl, h⟩
    exact h

/-- Two continuations of one computation that succeed go on from the same value. -/
theorem exists_of_binds_eq_ok {x : Except ε α} {f : α → Except ε β} {g : α → Except ε γ} {b : β}
    {c : γ} (hf : x >>= f = .ok b) (hg : x >>= g = .ok c) :
    ∃ a, x = .ok a ∧ f a = .ok b ∧ g a = .ok c := by
  obtain ⟨a, ha, hf⟩ := exists_of_bind_eq_ok hf
  rw [ha] at hg
  exact ⟨a, ha, hf, hg⟩

theorem exists_of_map_eq_ok {x : Except ε α} {f : α → β} {b : β} (h : f <$> x = .ok b) :
    ∃ a, x = .ok a ∧ f a = b := by
  cases x with
  | error e => cases h
  | ok a => exact ⟨a, rfl, Except.ok.inj h⟩

/-- Two checks in sequence pass if both do. -/
theorem bind_eq_ok {x y : Except ε Unit} :
    (x >>= fun _ => y) = .ok () ↔ x = .ok () ∧ y = .ok () := by
  cases x with
  | error e => simp [bind, Except.bind]
  | ok u => simp [bind, Except.bind]

/-- A check of an optional part passes if the part does where it is present. -/
theorem forM_eq_ok {part : Option α} {check : α → Except ε Unit} :
    part.forM check = .ok () ↔ ∀ a ∈ part, check a = .ok () := by
  cases part with
  | none => simp [Option.forM, pure, Except.pure]
  | some a => simp [Option.forM]

/-- What succeeds does so whatever its faults are turned into. -/
theorem mapError_eq_ok {f : ε → γ} {x : Except ε α} {a : α} :
    x.mapError f = .ok a ↔ x = .ok a := by
  cases x with
  | error e => exact ⟨nofun, nofun⟩
  | ok b =>
    constructor
    · exact fun h => congrArg Except.ok (Except.ok.inj h)
    · exact fun h => congrArg Except.ok (Except.ok.inj h)

end Montage
