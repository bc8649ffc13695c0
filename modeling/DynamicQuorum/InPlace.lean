/-
  DynamicQuorum/InPlace.lean
  ==========================
  **Procedures that change a state in place.**

  A procedure reads and writes a state as it goes, and it may be refused on the way.  A refusal
  takes nothing back: what was written before it stays written.  So it is a property of each
  procedure, and not of the way it is written down, that a refusal leaves the state as it was.
-/

namespace DynamicQuorum

/-- A procedure on a state `σ` that gives an `α`, or is refused for a cause in `ε`. -/
abbrev InPlace (ε σ α : Type) := EStateM ε σ α

namespace InPlace

variable {ε σ τ α : Type}

/-- A computation without a state is a step of any procedure. -/
def ofExcept : Except ε α → InPlace ε σ α
  | .ok a => pure a
  | .error e => throw e

instance : MonadLift (Except ε) (EStateM ε σ) := ⟨ofExcept⟩

/-- Carry out a procedure on a part of the state. -/
def onPart (read : σ → τ) (write : σ → τ → σ) (m : InPlace ε τ α) : InPlace ε σ α := fun s =>
  match m (read s) with
  | .ok a t => .ok a (write s t)
  -- a refused procedure may have changed its part, too
  | .error e t => .error e (write s t)

/-- The state that a procedure leaves behind, however it ends. -/
def leaves (m : InPlace ε σ α) (s : σ) : σ :=
  match m s with
  | .ok _ t => t
  | .error _ t => t

/-- What a procedure makes of a state of its own; after a refusal that state is dropped. -/
def makes (m : InPlace ε σ α) (s : σ) : Except ε σ :=
  match m s with
  | .ok _ t => .ok t
  | .error e _ => .error e

end InPlace

end DynamicQuorum
