/-
  DynamicQuorum/Ascending.lean
  ============================
  **Finite collections kept in strictly ascending order of a key.**

  A collection holds at most one element for each key, and the order is part of the type, so
  two collections with the same elements are equal.  `put` is a single pass that replaces
  on a collision.
-/

namespace DynamicQuorum

/-- Elements in strictly ascending order of `key`. -/
structure Ascending (α : Type) (key : α → Nat) where
  toList : List α
  ascending : toList.Pairwise (fun a b => key a < key b)

namespace Ascending

variable {α : Type} {key : α → Nat}

instance [DecidableEq α] : DecidableEq (Ascending α key) := fun a b =>
  decidable_of_iff (a.toList = b.toList)
    ⟨fun h => by cases a; cases b; simp_all, fun h => h ▸ rfl⟩

/-- Insert into an ascending list, in place of an element with the same key. -/
def putList (key : α → Nat) (a : α) : List α → List α
  | [] => [a]
  | b :: rest =>
    if key a < key b then a :: b :: rest
    else if key b < key a then b :: putList key a rest
    else a :: rest

theorem mem_putList {a c : α} {l : List α} (h : c ∈ putList key a l) : c = a ∨ c ∈ l := by
  induction l with
  | nil => simpa [putList] using h
  | cons b rest ih =>
    simp only [putList] at h
    split at h
    · simpa using h
    · split at h
      · rcases List.mem_cons.mp h with rfl | h
        · simp
        · rcases ih h with rfl | h <;> simp [*]
      · rcases List.mem_cons.mp h with rfl | h <;> simp [*]

theorem pairwise_putList (a : α) {l : List α} (h : l.Pairwise (fun a b => key a < key b)) :
    (putList key a l).Pairwise (fun a b => key a < key b) := by
  induction l with
  | nil => simp [putList]
  | cons b rest ih =>
    have hb := List.pairwise_cons.mp h
    simp only [putList]
    split
    next hab =>
      refine List.pairwise_cons.mpr ⟨fun c hc => ?_, h⟩
      rcases List.mem_cons.mp hc with rfl | hc
      · exact hab
      · exact Nat.lt_trans hab (hb.1 c hc)
    next hab =>
      split
      next hba =>
        refine List.pairwise_cons.mpr ⟨fun c hc => ?_, ih hb.2⟩
        rcases mem_putList hc with rfl | hc
        · exact hba
        · exact hb.1 c hc
      next hba =>
        exact List.pairwise_cons.mpr ⟨fun c hc => by have := hb.1 c hc; omega, hb.2⟩

def empty : Ascending α key := ⟨[], List.Pairwise.nil⟩

instance : Inhabited (Ascending α key) := ⟨empty⟩

def put (s : Ascending α key) (a : α) : Ascending α key :=
  ⟨putList key a s.toList, pairwise_putList a s.ascending⟩

def find? (s : Ascending α key) (k : Nat) : Option α := s.toList.find? (key · = k)

def hasKey (s : Ascending α key) (k : Nat) : Bool := (s.find? k).isSome

def size (s : Ascending α key) : Nat := s.toList.length

end Ascending

end DynamicQuorum
