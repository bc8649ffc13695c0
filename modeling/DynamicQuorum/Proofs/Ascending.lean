/-
  DynamicQuorum/Proofs/Ascending.lean
  ===================================
  **A collection in ascending order is the function that looks up its keys.**

  No two members share a key, so a look-up finds the one member with a key, and adding a member
  changes the look-up of its own key only.  Collections that agree on all look-ups are equal;
  in particular a member that is put back leaves the collection as it was.
-/
import DynamicQuorum.Ascending
import Mathlib.Data.List.Nodup

namespace DynamicQuorum.Ascending

variable {α : Type} {key : α → Nat}

/-! ### Members -/

theorem nodup_keys (s : Ascending α key) : (s.toList.map key).Nodup :=
  List.Pairwise.nodup (r := (· < ·)) (List.pairwise_map.mpr s.ascending)

theorem key_injOn (s : Ascending α key) {a b : α} (ha : a ∈ s.toList) (hb : b ∈ s.toList)
    (h : key a = key b) : a = b :=
  List.inj_on_of_nodup_map s.nodup_keys ha hb h

theorem mem_putList_iff {a c : α} {l : List α} (h : l.Pairwise (fun a b => key a < key b)) :
    c ∈ putList key a l ↔ c = a ∨ (c ∈ l ∧ key c ≠ key a) := by
  induction l with
  | nil => simp [putList]
  | cons b rest ih =>
    obtain ⟨hb, hrest⟩ := List.pairwise_cons.mp h
    rw [putList]
    split
    next hab =>
      -- the new member comes first, below all others
      have hfar : ∀ d ∈ b :: rest, key d ≠ key a := by
        intro d hd
        rcases List.mem_cons.mp hd with rfl | hd
        · omega
        · have := hb d hd
          omega
      rw [List.mem_cons]
      exact or_congr_right ⟨fun hc => ⟨hc, hfar c hc⟩, fun hc => hc.1⟩
    next hab =>
      split
      next hba =>
        -- the first member stays, and is another one
        rw [List.mem_cons, List.mem_cons, ih hrest]
        constructor
        · rintro (rfl | rfl | ⟨hc, hne⟩)
          · exact .inr ⟨.inl rfl, by omega⟩
          · exact .inl rfl
          · exact .inr ⟨.inr hc, hne⟩
        · rintro (rfl | ⟨rfl | hc, hne⟩)
          · exact .inr (.inl rfl)
          · exact .inl rfl
          · exact .inr (.inr ⟨hc, hne⟩)
      next hba =>
        -- the first member has the key, and is replaced
        have hkey : key b = key a := by omega
        rw [List.mem_cons, List.mem_cons]
        constructor
        · rintro (rfl | hc)
          · exact .inl rfl
          · have := hb c hc
            exact .inr ⟨.inr hc, by omega⟩
        · rintro (rfl | ⟨rfl | hc, hne⟩)
          · exact .inl rfl
          · exact absurd hkey hne
          · exact .inr hc

theorem mem_put {s : Ascending α key} {a c : α} :
    c ∈ (s.put a).toList ↔ c = a ∨ (c ∈ s.toList ∧ key c ≠ key a) :=
  mem_putList_iff s.ascending

/-! ### Look-up -/

theorem find?_eq_some {s : Ascending α key} {k : Nat} {a : α} :
    s.find? k = some a ↔ a ∈ s.toList ∧ key a = k := by
  constructor
  · intro h
    exact ⟨List.mem_of_find?_eq_some h, by simpa using List.find?_some h⟩
  · rintro ⟨ha, rfl⟩
    cases hfind : s.find? (key a) with
    | none => simpa using List.find?_eq_none.mp hfind a ha
    | some b =>
      have hb : b ∈ s.toList := List.mem_of_find?_eq_some hfind
      have hkey : key b = key a := by simpa using List.find?_some hfind
      rw [s.key_injOn hb ha hkey]

theorem find?_put (s : Ascending α key) (a : α) (k : Nat) :
    (s.put a).find? k = if k = key a then some a else s.find? k := by
  apply Option.ext
  intro c
  rw [find?_eq_some, mem_put]
  split
  next hk =>
    rw [Option.some_inj]
    constructor
    · rintro ⟨rfl | ⟨-, hne⟩, hc⟩
      · rfl
      · exact absurd (hc.trans hk) hne
    · rintro rfl
      exact ⟨.inl rfl, hk.symm⟩
  next hk =>
    rw [find?_eq_some]
    constructor
    · rintro ⟨rfl | ⟨hc, -⟩, rfl⟩
      · exact absurd rfl hk
      · exact ⟨hc, rfl⟩
    · rintro ⟨hc, rfl⟩
      exact ⟨.inr ⟨hc, hk⟩, rfl⟩

/-- A collection is determined by its members. -/
theorem ext_mem {s t : Ascending α key} (h : ∀ a, a ∈ s.toList ↔ a ∈ t.toList) : s = t := by
  have hperm : s.toList.Perm t.toList :=
    (List.perm_ext_iff_of_nodup (List.Nodup.of_map key s.nodup_keys)
      (List.Nodup.of_map key t.nodup_keys)).mpr h
  have hlist : s.toList = t.toList :=
    hperm.eq_of_pairwise (fun a b _ _ hab hba => absurd hab (Nat.not_lt.mpr (Nat.le_of_lt hba)))
      s.ascending t.ascending
  cases s
  cases t
  simp_all

/-- A collection is determined by its look-ups. -/
theorem ext_find? {s t : Ascending α key} (h : ∀ k, s.find? k = t.find? k) : s = t := by
  apply ext_mem
  intro a
  have hs := find?_eq_some (s := s) (k := key a) (a := a)
  have ht := find?_eq_some (s := t) (k := key a) (a := a)
  rw [h, ht] at hs
  simpa using hs.symm

/-- Putting a member back changes nothing. -/
theorem put_of_find? {s : Ascending α key} {a : α} (h : s.find? (key a) = some a) :
    s.put a = s := by
  apply ext_find?
  intro k
  rw [find?_put]
  split
  next hk => rw [hk, h]
  next => rfl

/-- Of two members with one key the later one stays. -/
theorem put_put (s : Ascending α key) {a b : α} (h : key a = key b) :
    (s.put a).put b = s.put b := by
  apply ext_find?
  intro k
  simp only [find?_put, h]
  split <;> rfl

/-- Members with different keys may be put in either order. -/
theorem put_comm (s : Ascending α key) {a b : α} (h : key a ≠ key b) :
    (s.put a).put b = (s.put b).put a := by
  apply ext_find?
  intro k
  simp only [find?_put]
  by_cases hb : k = key b
  · simp [hb, Ne.symm h]
  · simp [hb]

/-! ### Listings -/

/-- A member with a fresh key is one more, wherever it is put. -/
theorem perm_putList (a : α) (l : List α) (h : ∀ b ∈ l, key b ≠ key a) :
    (putList key a l).Perm (a :: l) := by
  induction l with
  | nil => rfl
  | cons b rest ih =>
    have hb := h b List.mem_cons_self
    rw [putList]
    split
    next => rfl
    next hab =>
      rw [if_pos (by omega)]
      have hrest := ih fun c hc => h c (List.mem_cons_of_mem b hc)
      exact (hrest.cons b).trans (.swap a b rest)

theorem perm_put (s : Ascending α key) {a : α} (h : ∀ b ∈ s.toList, key b ≠ key a) :
    (s.put a).toList.Perm (a :: s.toList) :=
  perm_putList a s.toList h

theorem size_put (s : Ascending α key) {a : α} (h : ∀ b ∈ s.toList, key b ≠ key a) :
    (s.put a).size = s.size + 1 :=
  (s.perm_put h).length_eq

/-- A member that takes the place of one that looks the same leaves the looks of the listing. -/
theorem map_putList {β : Type} (f : α → β) {a b : α} {l : List α}
    (h : l.Pairwise (fun a b => key a < key b)) (hb : b ∈ l) (hkey : key b = key a)
    (hf : f b = f a) : (putList key a l).map f = l.map f := by
  induction l with
  | nil => cases hb
  | cons c rest ih =>
    obtain ⟨hc, hrest⟩ := List.pairwise_cons.mp h
    rw [putList]
    rcases List.mem_cons.mp hb with rfl | hb
    · rw [if_neg (by omega), if_neg (by omega), List.map_cons, List.map_cons, hf]
    · have hbelow := hc b hb
      rw [if_neg (by omega), if_pos (by omega), List.map_cons, List.map_cons, ih hrest hb]

theorem map_put {β : Type} (f : α → β) (s : Ascending α key) {a b : α} (hb : b ∈ s.toList)
    (hkey : key b = key a) (hf : f b = f a) : (s.put a).toList.map f = s.toList.map f :=
  map_putList f s.ascending hb hkey hf

end DynamicQuorum.Ascending
