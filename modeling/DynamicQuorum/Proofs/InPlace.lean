/-
  DynamicQuorum/Proofs/InPlace.lean
  =================================
  **Procedures that are refused before they write.**

  A procedure is atomic if a refusal leaves the state as it was.  The rules below follow the
  way procedures are written: steps that only read may come first, since a refusal after them
  finds nothing written; steps that are never refused may come last, since nothing can go
  wrong once they write.  An atomic procedure on a part is atomic on the whole if the part,
  written back unchanged, leaves the whole as it was.
-/
import DynamicQuorum.InPlace

namespace DynamicQuorum.InPlace

variable {ε σ τ α β : Type}

/-! ### Runs -/

theorem bind_run (m : InPlace ε σ α) (f : α → InPlace ε σ β) (s : σ) :
    (m >>= f) s = match m s with
      | .ok a t => f a t
      | .error e t => .error e t := rfl

@[simp] theorem pure_run (a : α) (s : σ) : (pure a : InPlace ε σ α) s = .ok a s := rfl

@[simp] theorem throw_run (e : ε) (s : σ) : (throw e : InPlace ε σ α) s = .error e s := rfl

@[simp] theorem get_run (s : σ) : (get : InPlace ε σ σ) s = .ok s s := rfl

@[simp] theorem getThe_run (s : σ) : (getThe σ : InPlace ε σ σ) s = .ok s s := rfl

@[simp] theorem modify_run (f : σ → σ) (s : σ) :
    (modify f : InPlace ε σ PUnit) s = .ok () (f s) := rfl

theorem liftM_eq_ok {x : Except ε α} {a : α} {s t : σ} :
    (liftM x : InPlace ε σ α) s = .ok a t ↔ x = .ok a ∧ t = s := by
  cases x with
  | ok b =>
    constructor
    · rintro ⟨⟩
      exact ⟨rfl, rfl⟩
    · rintro ⟨⟨⟩, rfl⟩
      rfl
  | error e =>
    constructor
    · rintro ⟨⟩
    · rintro ⟨⟨⟩, -⟩

theorem liftM_eq_error {x : Except ε α} {e : ε} {s t : σ} :
    (liftM x : InPlace ε σ α) s = .error e t ↔ x = .error e ∧ t = s := by
  cases x with
  | ok b =>
    constructor
    · rintro ⟨⟩
    · rintro ⟨⟨⟩, -⟩
  | error e' =>
    constructor
    · rintro ⟨⟩
      exact ⟨rfl, rfl⟩
    · rintro ⟨⟨⟩, rfl⟩
      rfl

/-- A sequence is accepted when its steps are. -/
theorem bind_eq_ok {m : InPlace ε σ α} {f : α → InPlace ε σ β} {s u : σ} {b : β} :
    (m >>= f) s = .ok b u ↔ ∃ a t, m s = .ok a t ∧ f a t = .ok b u := by
  rw [bind_run]
  cases m s with
  | ok a t =>
    constructor
    · intro h
      exact ⟨a, t, rfl, h⟩
    · rintro ⟨_, _, ⟨⟩, h⟩
      exact h
  | error e t => simp

/-- A sequence is refused by its first step, or by its second one after the first. -/
theorem bind_eq_error {m : InPlace ε σ α} {f : α → InPlace ε σ β} {s u : σ} {e : ε} :
    (m >>= f) s = .error e u ↔
      m s = .error e u ∨ ∃ a t, m s = .ok a t ∧ f a t = .error e u := by
  rw [bind_run]
  cases m s with
  | ok a t =>
    constructor
    · intro h
      exact .inr ⟨a, t, rfl, h⟩
    · rintro (⟨⟨⟩⟩ | ⟨_, _, ⟨⟩, h⟩)
      exact h
  | error e t => simp

theorem makes_eq_ok {m : InPlace ε σ α} {s t : σ} :
    m.makes s = .ok t ↔ ∃ a, m s = .ok a t := by
  rw [makes]
  cases m s with
  | ok a u =>
    constructor
    · rintro ⟨⟩
      exact ⟨a, rfl⟩
    · rintro ⟨_, ⟨⟩⟩
      rfl
  | error e u => simp

theorem makes_eq_error {m : InPlace ε σ α} {s : σ} {e : ε} :
    m.makes s = .error e ↔ ∃ t, m s = .error e t := by
  rw [makes]
  cases m s with
  | ok a u => simp
  | error e' u =>
    constructor
    · rintro ⟨⟩
      exact ⟨u, rfl⟩
    · rintro ⟨_, ⟨⟩⟩
      rfl

/-! ### Steps that only read, and steps that are never refused -/

def ReadOnly (m : InPlace ε σ α) : Prop := ∀ s, m.leaves s = s

def Unfailing (m : InPlace ε σ α) : Prop := ∀ s, ∃ a t, m s = .ok a t

theorem ReadOnly.get : ReadOnly (MonadState.get : InPlace ε σ σ) := fun _ => rfl

theorem ReadOnly.throw (e : ε) : ReadOnly (MonadExcept.throw e : InPlace ε σ α) := fun _ => rfl

theorem ReadOnly.lift (x : Except ε α) : ReadOnly (liftM x : InPlace ε σ α) := by
  intro s
  cases x <;> rfl

theorem Unfailing.set (t : σ) : Unfailing (MonadStateOf.set t : InPlace ε σ PUnit) :=
  fun _ => ⟨_, _, rfl⟩

theorem Unfailing.modify (f : σ → σ) : Unfailing (modify f : InPlace ε σ PUnit) :=
  fun _ => ⟨_, _, rfl⟩

theorem Unfailing.bind {m : InPlace ε σ α} {f : α → InPlace ε σ β} (hm : Unfailing m)
    (hf : ∀ a, Unfailing (f a)) : Unfailing (m >>= f) := by
  intro s
  obtain ⟨a, t, hs⟩ := hm s
  obtain ⟨b, u, ht⟩ := hf a t
  exact ⟨b, u, bind_eq_ok.mpr ⟨a, t, hs, ht⟩⟩

/-! ### Atomic procedures -/

/-- A refusal leaves the state as it was. -/
def Atomic (m : InPlace ε σ α) : Prop := ∀ s t e, m s = .error e t → t = s

theorem ReadOnly.atomic {m : InPlace ε σ α} (hm : ReadOnly m) : Atomic m := by
  intro s t e h
  have hs := hm s
  simpa [leaves, h] using hs

theorem Unfailing.atomic {m : InPlace ε σ α} (hm : Unfailing m) : Atomic m := by
  intro s t e h
  obtain ⟨a, u, hs⟩ := hm s
  rw [hs] at h
  cases h

/-- Reading first. -/
theorem Atomic.after_readOnly {m : InPlace ε σ α} {f : α → InPlace ε σ β} (hm : ReadOnly m)
    (hf : ∀ a, Atomic (f a)) : Atomic (m >>= f) := by
  intro s u e h
  have hs := hm s
  rcases bind_eq_error.mp h with h | ⟨a, t, hok, h⟩
  · exact hm.atomic _ _ _ h
  · simp only [leaves, hok] at hs
    exact (hf a _ _ _ h).trans hs

/-- Writing last. -/
theorem Atomic.before_unfailing {m : InPlace ε σ α} {f : α → InPlace ε σ β} (hm : Atomic m)
    (hf : ∀ a, Unfailing (f a)) : Atomic (m >>= f) := by
  intro s u e h
  rcases bind_eq_error.mp h with h | ⟨a, t, -, h⟩
  · exact hm _ _ _ h
  · obtain ⟨b, v, hok⟩ := hf a t
    rw [hok] at h
    cases h

/-! ### Parts -/

theorem onPart_eq_ok {read : σ → τ} {write : σ → τ → σ} {m : InPlace ε τ α} {s u : σ} {a : α} :
    m.onPart read write s = .ok a u ↔ ∃ t, m (read s) = .ok a t ∧ u = write s t := by
  rw [onPart]
  cases m (read s) with
  | ok b t =>
    constructor
    · rintro ⟨⟩
      exact ⟨t, rfl, rfl⟩
    · rintro ⟨_, ⟨⟩, rfl⟩
      rfl
  | error e t => simp

theorem onPart_eq_error {read : σ → τ} {write : σ → τ → σ} {m : InPlace ε τ α} {s u : σ} {e : ε} :
    m.onPart read write s = .error e u ↔ ∃ t, m (read s) = .error e t ∧ u = write s t := by
  rw [onPart]
  cases m (read s) with
  | ok b t => simp
  | error e t =>
    constructor
    · rintro ⟨⟩
      exact ⟨t, rfl, rfl⟩
    · rintro ⟨_, ⟨⟩, rfl⟩
      rfl

theorem Atomic.onPart {read : σ → τ} {write : σ → τ → σ} {m : InPlace ε τ α} (hm : Atomic m)
    (hback : ∀ s, write s (read s) = s) : Atomic (m.onPart read write) := by
  intro s u e h
  obtain ⟨t, ht, rfl⟩ := onPart_eq_error.mp h
  rw [hm _ _ _ ht, hback]

end DynamicQuorum.InPlace
