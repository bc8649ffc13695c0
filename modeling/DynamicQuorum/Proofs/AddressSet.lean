/-
  DynamicQuorum/Proofs/AddressSet.lean
  ====================================
  **Sets of accounts hold what was inserted, whatever the order.**

  The number written by twenty bytes determines them, so the key of an account stands for it.
-/
import DynamicQuorum.AddressSet
import DynamicQuorum.Proofs.Ascending

namespace DynamicQuorum

namespace Address

/-- Two numbers with equally many digits to the base 256 agree in all of them. -/
theorem digits_injective {l l' : List UInt8} (hlength : l.length = l'.length) {high high' : Nat}
    (h : l.foldl (fun acc b => acc * 256 + b.toNat) high =
      l'.foldl (fun acc b => acc * 256 + b.toNat) high') : high = high' ∧ l = l' := by
  induction l generalizing l' high high' with
  | nil =>
    cases l' with
    | nil => exact ⟨h, rfl⟩
    | cons b' rest' => cases hlength
  | cons b rest ih =>
    cases l' with
    | nil => cases hlength
    | cons b' rest' =>
      obtain ⟨hhigh, rfl⟩ := ih (Nat.succ.inj hlength) h
      dsimp only at hhigh
      -- both digits are below the base, so equal sums have equal parts
      have hb := b.toNat_lt
      have hb' := b'.toNat_lt
      have hdigit : b = b' := UInt8.toNat_inj.mp (by omega)
      exact ⟨by omega, by rw [hdigit]⟩

theorem toNat_injective {a b : Address} (h : a.toNat = b.toNat) : a = b := by
  cases a with
  | mk bytes hbytes =>
    cases b with
    | mk bytes' hbytes' =>
      obtain ⟨-, rfl⟩ := digits_injective (hbytes.trans hbytes'.symm) h
      rfl

end Address

namespace AddressSet

variable {s : AddressSet} {a b : Address}

theorem contains_insert : (s.insert a).contains b = true ↔ b = a ∨ s.contains b = true := by
  rw [contains, contains, decide_eq_true_iff, decide_eq_true_iff]
  constructor
  · intro h
    rcases Ascending.mem_put.mp h with h | ⟨h, -⟩
    · exact .inl h
    · exact .inr h
  · intro h
    by_cases hab : b = a
    · exact Ascending.mem_put.mpr (.inl hab)
    · refine Ascending.mem_put.mpr (.inr ⟨h.resolve_left hab, ?_⟩)
      exact fun hkey => hab (Address.toNat_injective hkey)

theorem insert_comm (s : AddressSet) (h : a ≠ b) :
    (s.insert a).insert b = (s.insert b).insert a :=
  Ascending.put_comm s fun hkey => h (Address.toNat_injective hkey)

theorem contains_iff : s.contains a = true ↔ a ∈ s.toList := decide_eq_true_iff

theorem contains_foldl_insert (addresses : List Address) :
    (addresses.foldl insert s).contains a = true ↔ a ∈ addresses ∨ s.contains a = true := by
  induction addresses generalizing s with
  | nil => simp
  | cons first rest ih =>
    rw [List.foldl_cons, ih, contains_insert, List.mem_cons]
    constructor
    · rintro (h | h | h)
      · exact .inl (.inr h)
      · exact .inl (.inl h)
      · exact .inr h
    · rintro ((h | h) | h)
      · exact .inr (.inl h)
      · exact .inl h
      · exact .inr (.inr h)

/-- A set is read back from its members, in whatever order they are listed. -/
theorem ofList_of_perm {addresses : List Address} (h : addresses.Perm s.toList) :
    ofList addresses = s := by
  apply Ascending.ext_mem
  intro a
  rw [ofList, ← contains_iff, contains_foldl_insert, h.mem_iff]
  constructor
  · rintro (ha | ha)
    · exact ha
    · cases ha
  · exact .inl

theorem size_insert (h : s.contains a = false) : (s.insert a).size = s.size + 1 := by
  refine Ascending.size_put s fun b hb hkey => ?_
  rw [Address.toNat_injective hkey] at hb
  simp [contains, hb] at h

end AddressSet

end DynamicQuorum
