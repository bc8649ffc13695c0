/-
  DynamicQuorum/Proofs/Except.lean
  ================================
  **Computations that give a value or an error.**
-/

namespace DynamicQuorum.Except

variable {ε α β : Type} {b : β}

/-- A computation in two parts succeeds when both parts do. -/
theorem bind_eq_ok {first : Except ε α} {rest : α → Except ε β} :
    first >>= rest = .ok b ↔ ∃ a, first = .ok a ∧ rest a = .ok b := by
  cases first with
  | error cause => exact ⟨nofun, nofun⟩
  | ok a => exact ⟨fun h => ⟨a, rfl, h⟩, fun ⟨_, rfl, h⟩ => h⟩

theorem map_eq_ok {first : Except ε α} {f : α → β} :
    first.map f = .ok b ↔ ∃ a, first = .ok a ∧ f a = b := by
  cases first with
  | error cause => exact ⟨nofun, nofun⟩
  | ok a => simp [Except.map]

theorem eq_error {result : Except ε α} (h : ∀ a, result ≠ .ok a) :
    ∃ cause, result = .error cause := by
  cases result with
  | error cause => exact ⟨cause, rfl⟩
  | ok a => exact absurd rfl (h a)

end DynamicQuorum.Except
