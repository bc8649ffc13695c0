/-
  DynamicQuorum/Proofs/Word256/Sum.lean
  =====================================
  **Sums, differences and the order are those of the natural numbers.**

  A carry that leaves the top limb has the weight `2 ^ 256`, and so has a borrow: a word comes out
  of a sum exactly when nothing is carried, and of a difference exactly when nothing is borrowed.
  What is borrowed tells the order of the two words, which the comparison finds limb by limb from
  the other end.
-/
import DynamicQuorum.Proofs.Word256.Arithmetic

namespace DynamicQuorum.Word256

variable {a b v : Word256}

/-! ### Sums -/

/-- The sum modulo `size`; it spills when the exact one is no word. -/
theorem addCarry_eq (a b : Word256) :
    (addCarry a b).1.toNat = (a.toNat + b.toNat) % size ∧
      ((addCarry a b).2 = true ↔ size ≤ a.toNat + b.toNat) := by
  have hsum := addCarry_value a b
  have hlow := (addCarry a b).1.toNat_lt
  have ha := a.toNat_lt
  have hb := b.toNat_lt
  rw [size_eq] at *
  cases hcarry : (addCarry a b).2 with
  | false =>
    rw [hcarry, Bool.toNat_false] at hsum
    constructor
    · omega
    · simp only [Bool.false_eq_true, false_iff]
      omega
  | true =>
    rw [hcarry, Bool.toNat_true] at hsum
    constructor
    · omega
    · simp only [true_iff]
      omega

theorem add?_eq_some : a.add? b = some v ↔ v.toNat = a.toNat + b.toNat := by
  rw [add?_eq, word?_eq_some]

theorem add?_eq_none : a.add? b = none ↔ size ≤ a.toNat + b.toNat := by
  rw [add?_eq, word?_eq_none]

/-! ### Differences -/

/-- The difference modulo `size`; it borrows when the exact one is negative. -/
theorem subBorrow_eq (a b : Word256) :
    ((subBorrow a b).1.toNat : Int) = ((a.toNat : Int) - b.toNat) % size ∧
      ((subBorrow a b).2 = true ↔ a.toNat < b.toNat) := by
  have hdiff := subBorrow_value a b
  have hlow := (subBorrow a b).1.toNat_lt
  have ha := a.toNat_lt
  have hb := b.toNat_lt
  rw [size_eq] at *
  cases hborrow : (subBorrow a b).2 with
  | false =>
    rw [hborrow, Bool.toNat_false] at hdiff
    constructor
    · omega
    · simp only [Bool.false_eq_true, false_iff]
      omega
  | true =>
    rw [hborrow, Bool.toNat_true] at hdiff
    constructor
    · omega
    · simp only [true_iff]
      omega

theorem sub?_eq_some : a.sub? b = some v ↔ b.toNat ≤ a.toNat ∧ v.toNat = a.toNat - b.toNat := by
  have hdiff := subBorrow_value a b
  have hlow := (subBorrow a b).1.toNat_lt
  have hv := v.toNat_lt
  rw [sub?]
  cases hborrow : (subBorrow a b).2 with
  | false =>
    rw [hborrow, Bool.toNat_false, Nat.mul_zero, Nat.add_zero] at hdiff
    rw [if_neg Bool.false_ne_true, Option.some_inj, ← toNat_inj]
    omega
  | true =>
    rw [hborrow, Bool.toNat_true, Nat.mul_one] at hdiff
    rw [if_pos rfl]
    constructor
    · intro h
      cases h
    · rintro ⟨hle, -⟩
      omega

theorem sub?_eq_none : a.sub? b = none ↔ a.toNat < b.toNat := by
  rw [← (subBorrow_eq a b).2, sub?]
  cases (subBorrow a b).2 <;> simp

/-! ### The order -/

theorem limbs_inj : a.limbs = b.limbs ↔ a = b := by
  constructor
  · intro h
    cases a
    cases b
    simpa [limbs] using h
  · intro h
    rw [h]

theorem compare_eq_eq : compare a b = .eq ↔ a.limbs = b.limbs := by
  rw [compare_eq, Nat.compare_eq_eq, toNat_inj, limbs_inj]

theorem le_total (a b : Word256) : a ≤ b ∨ b ≤ a := by
  simp only [le_iff]
  exact Nat.le_total _ _

/-! ### All together -/

/-- **Addition, subtraction and order are exact.**  A sum is the one of the natural numbers when it
    is a word, and `none` otherwise; a difference is theirs when it is not negative, and `none`
    otherwise.  Words compare as their numbers do, so the order is total, and two words are equal
    in it only if they agree limb by limb.  What the wrapping operations give is the exact result
    modulo `2 ^ 256`, and whether it was left. -/
theorem sums_differences_and_order_are_exact (a b : Word256) :
    (∀ v, a.add? b = some v ↔ v.toNat = a.toNat + b.toNat) ∧
      (a.add? b = none ↔ 2 ^ 256 ≤ a.toNat + b.toNat) ∧
      (∀ v, a.sub? b = some v ↔ b.toNat ≤ a.toNat ∧ v.toNat = a.toNat - b.toNat) ∧
      (a.sub? b = none ↔ a.toNat < b.toNat) ∧
      compare a b = compare a.toNat b.toNat ∧
      (compare a b = .eq ↔ a.limbs = b.limbs) ∧
      (a < b ↔ a.toNat < b.toNat) ∧ (a ≤ b ↔ a.toNat ≤ b.toNat) ∧ (a ≤ b ∨ b ≤ a) ∧
      (addCarry a b).1.toNat = (a.toNat + b.toNat) % 2 ^ 256 ∧
      ((addCarry a b).2 = true ↔ 2 ^ 256 ≤ a.toNat + b.toNat) ∧
      ((subBorrow a b).1.toNat : Int) = ((a.toNat : Int) - b.toNat) % 2 ^ 256 ∧
      ((subBorrow a b).2 = true ↔ a < b) := by
  obtain ⟨hsum, hspill⟩ := addCarry_eq a b
  obtain ⟨hdiff, hborrow⟩ := subBorrow_eq a b
  refine ⟨fun v => add?_eq_some, add?_eq_none, fun v => sub?_eq_some, sub?_eq_none,
    compare_eq a b, compare_eq_eq, lt_iff, le_iff, le_total a b, hsum, hspill, hdiff, ?_⟩
  rw [hborrow, lt_iff]

/-- A carry goes through two full limbs, and a borrow through two empty ones. -/
example : (mk (-1) (-1) 5 0).add? one = some (mk 0 0 6 0) ∧
    (mk 0 0 6 0).sub? one = some (mk (-1) (-1) 5 0) := by decide

end DynamicQuorum.Word256
