/-
  DynamicQuorum/Proofs/Toml/Layout.lean
  =====================================
  **Records that are filled from the entries of a table.**

  A record has a place for each of some fields.  Going through the entries, the value under the
  name of a field is read and put in its place, and other entries are passed over.  If no key
  occurs twice, the order of the entries does not matter: every field holds what was read of the
  value under its name, or what it held before where there is none.
-/
import DynamicQuorum.Proofs.Except
import DynamicQuorum.Proofs.Toml.Entries

namespace DynamicQuorum.Toml

/-- The fields of a record: their names, how their values are read, and their places. -/
structure Layout (σ ε : Type) {ι : Type} (β : ι → Type) where
  name : ι → String
  read : (i : ι) → Value → Except ε (β i)
  get : (i : ι) → σ → β i
  put : (i : ι) → β i → σ → σ
  name_injective : Function.Injective name
  get_put : ∀ i x s, get i (put i x s) = x
  get_put_of_ne : ∀ i j x s, j ≠ i → get j (put i x s) = get j s
  ext : ∀ s t, (∀ i, get i s = get i t) → s = t

namespace Layout

variable {σ ε ι : Type} {β : ι → Type} {l : Layout σ ε β} {add : σ → String × Value → Except ε σ}
  {entries : Entries} {s t : σ}

structure IsStep (l : Layout σ ε β) (add : σ → String × Value → Except ε σ) : Prop where
  field : ∀ s i v, add s (l.name i, v) = (l.read i v).map fun x => l.put i x s
  other : ∀ s key v, (∀ i, l.name i ≠ key) → add s (key, v) = .ok s

/-- The field has its value from the entry under its name, or the standard one if there is none. -/
def Found (l : Layout σ ε β) (entries : Entries) (i : ι) (standard x : β i) : Prop :=
  (entries.find? (l.name i) = none ∧ x = standard) ∨
    ∃ v, entries.find? (l.name i) = some v ∧ l.read i v = .ok x

theorem found_cons_self {i : ι} {v : Value} {standard x : β i} :
    l.Found ((l.name i, v) :: entries) i standard x ↔ l.read i v = .ok x := by
  rw [Found, Entries.find?_cons, if_pos rfl]
  constructor
  · rintro (⟨⟨⟩, -⟩ | ⟨_, ⟨⟩, hread⟩)
    exact hread
  · intro hread
    exact .inr ⟨v, rfl, hread⟩

theorem found_cons_of_ne {i : ι} {key : String} {v : Value} {standard x : β i}
    (h : key ≠ l.name i) :
    l.Found ((key, v) :: entries) i standard x ↔ l.Found entries i standard x := by
  rw [Found, Entries.find?_cons, if_neg h]
  rfl

theorem found_of_absent {i : ι} {standard x : β i} (h : l.name i ∉ entries.keys) :
    l.Found entries i standard x ↔ x = standard := by
  rw [Found, Entries.find?_eq_none.mpr h]
  simp

/-- Where a value of the field is read from one form only, this form is what stands there. -/
theorem found_eq {i : ι} {standard x : β i} {w : Value} (h : ∀ v, l.read i v = .ok x ↔ v = w) :
    l.Found entries i standard x ↔ (entries.find? (l.name i) = none ∧ x = standard) ∨
      entries.find? (l.name i) = some w := by
  constructor
  · rintro (habsent | ⟨v, hfind, hread⟩)
    · exact .inl habsent
    · obtain rfl := (h v).mp hread
      exact .inr hfind
  · rintro (habsent | hfind)
    · exact .inl habsent
    · exact .inr ⟨w, hfind, (h w).mpr rfl⟩

theorem found_of_ne {i : ι} {standard x : β i} (h : x ≠ standard) :
    l.Found entries i standard x ↔ ∃ v, entries.find? (l.name i) = some v ∧ l.read i v = .ok x := by
  constructor
  · rintro (⟨-, heq⟩ | hfound)
    · exact absurd heq h
    · exact hfound
  · intro hfound
    exact .inr hfound

theorem found_eq_of_ne {i : ι} {standard x : β i} {w : Value} (h : x ≠ standard)
    (hread : ∀ v, l.read i v = .ok x ↔ v = w) :
    l.Found entries i standard x ↔ entries.find? (l.name i) = some w := by
  rw [found_eq hread]
  exact or_iff_right fun habsent => h habsent.2

/-- **The record is filled field by field.** -/
theorem IsStep.foldlM_eq_ok (hstep : l.IsStep add) (hkeys : entries.keys.Nodup) :
    entries.foldlM add s = .ok t ↔ ∀ i, l.Found entries i (l.get i s) (l.get i t) := by
  induction entries generalizing s with
  | nil =>
    constructor
    · rintro ⟨⟩ i
      exact .inl ⟨rfl, rfl⟩
    · intro h
      refine congrArg Except.ok (l.ext s t fun i => ?_)
      exact ((found_of_absent List.not_mem_nil).mp (h i)).symm
  | cons entry entries ih =>
    obtain ⟨key, v⟩ := entry
    obtain ⟨habsent, hrest⟩ := List.nodup_cons.mp hkeys
    rw [List.foldlM_cons]
    by_cases hfield : ∃ i, l.name i = key
    · obtain ⟨i, rfl⟩ := hfield
      have hne : ∀ {j}, j ≠ i → l.name i ≠ l.name j := fun hj heq => hj (l.name_injective heq).symm
      rw [hstep.field]
      constructor
      · intro h j
        obtain ⟨u, hu, hfold⟩ := Except.bind_eq_ok.mp h
        obtain ⟨x, hread, rfl⟩ := Except.map_eq_ok.mp hu
        -- no other entry has this name, so the field keeps what was put there
        have hall := (ih hrest).mp hfold
        by_cases hj : j = i
        · subst j
          have hi := (found_of_absent habsent).mp (hall i)
          rw [l.get_put] at hi
          exact found_cons_self.mpr (hi ▸ hread)
        · have hother := hall j
          rw [l.get_put_of_ne i j x s hj] at hother
          exact (found_cons_of_ne (hne hj)).mpr hother
      · intro h
        have hread := found_cons_self.mp (h i)
        rw [hread]
        refine (ih hrest).mpr fun j => ?_
        by_cases hj : j = i
        · subst j
          rw [l.get_put]
          exact (found_of_absent habsent).mpr rfl
        · rw [l.get_put_of_ne i j _ s hj]
          exact (found_cons_of_ne (hne hj)).mp (h j)
    · have hother : ∀ i, l.name i ≠ key := fun i heq => hfield ⟨i, heq⟩
      rw [hstep.other s key v hother]
      refine (ih hrest).trans (forall_congr' fun i => ?_)
      exact (found_cons_of_ne (hother i).symm).symm

end Layout

end DynamicQuorum.Toml
