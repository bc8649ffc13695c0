/-
  DynamicQuorum/Proofs/Word256/Limb.lean
  ======================================
  **The steps of wide arithmetic are exact.**

  Each step takes limbs and a carry and gives a limb and a carry.  The lemmas below say that
  nothing is lost on the way: read as natural numbers, the limb and `radix` times the carry
  add up to the exact value of the step.  For the product step this needs that the total
  stays below `radix * radix`, for the division step that the remainder brought along is
  smaller than the divisor.
-/
import DynamicQuorum.Word256.Limb
import Mathlib.Tactic.Ring
import Mathlib.Tactic.Linarith

namespace DynamicQuorum.Limb

theorem radix_eq : radix = 2 ^ 64 := rfl

theorem toNat_lt_radix (x : UInt64) : x.toNat < radix := x.toNat_lt

theorem radix_pos : 0 < radix := Nat.two_pow_pos 64

@[simp] theorem toNat_toUInt64 (b : Bool) : b.toUInt64.toNat = b.toNat := by
  cases b <;> rfl

theorem toNat_ofNat (n : Nat) : (UInt64.ofNat n).toNat = n % radix := UInt64.toNat_ofNat'

theorem toNat_ofNat_of_lt {n : Nat} (h : n < radix) : (UInt64.ofNat n).toNat = n := by
  rw [toNat_ofNat, Nat.mod_eq_of_lt h]

/-- A spill that either of two tests may show. -/
theorem toNat_decide_or (p q : Prop) [Decidable p] [Decidable q] :
    (decide p || decide q).toNat = if p ∨ q then 1 else 0 := by
  by_cases hp : p <;> by_cases hq : q <;> simp [hp, hq]

/-! ### Sum and difference -/

/-- The limb and the carry of a sum hold the whole sum. -/
theorem addCarry_value (a b : UInt64) (carry : Bool) :
    (addCarry a b carry).1.toNat + radix * (addCarry a b carry).2.toNat =
      a.toNat + b.toNat + carry.toNat := by
  have ha := a.toNat_lt
  have hb := b.toNat_lt
  have hc : carry.toNat ≤ 1 := carry.toNat_le
  simp only [addCarry, radix_eq, toNat_decide_or, UInt64.lt_iff_toNat_lt, UInt64.toNat_add,
    toNat_toUInt64]
  split <;> omega

/-- A difference, with `radix` lent if it had to borrow. -/
theorem subBorrow_value (a b : UInt64) (borrow : Bool) :
    (subBorrow a b borrow).1.toNat + b.toNat + borrow.toNat =
      a.toNat + radix * (subBorrow a b borrow).2.toNat := by
  have ha := a.toNat_lt
  have hb := b.toNat_lt
  have hc : borrow.toNat ≤ 1 := borrow.toNat_le
  simp only [subBorrow, radix_eq, toNat_decide_or, UInt64.lt_iff_toNat_lt, UInt64.toNat_sub,
    toNat_toUInt64]
  split <;> omega

/-! ### Product -/

/-- The total of a product step fits two limbs. -/
theorem mulAdd_total_lt (old a b carry : UInt64) :
    old.toNat + a.toNat * b.toNat + carry.toNat < radix * radix := by
  have ha : a.toNat ≤ radix - 1 := Nat.le_pred_of_lt a.toNat_lt
  have hb : b.toNat ≤ radix - 1 := Nat.le_pred_of_lt b.toNat_lt
  have hprod : a.toNat * b.toNat ≤ (radix - 1) * (radix - 1) := Nat.mul_le_mul ha hb
  have hold := old.toNat_lt
  have hcarry := carry.toNat_lt
  rw [radix_eq] at hprod ⊢
  omega

/-- The total of a product step is its limb and, above it, its carry. -/
theorem mulAdd_toNat (old a b carry : UInt64) :
    (mulAdd old a b carry).1.toNat = (old.toNat + a.toNat * b.toNat + carry.toNat) % radix ∧
      (mulAdd old a b carry).2.toNat =
        (old.toNat + a.toNat * b.toNat + carry.toNat) / radix := by
  constructor
  · exact toNat_ofNat _
  · exact toNat_ofNat_of_lt (Nat.div_lt_of_lt_mul (mulAdd_total_lt old a b carry))

theorem mulAdd_value (old a b carry : UInt64) :
    (mulAdd old a b carry).1.toNat + radix * (mulAdd old a b carry).2.toNat =
      old.toNat + a.toNat * b.toNat + carry.toNat := by
  obtain ⟨hlow, hhigh⟩ := mulAdd_toNat old a b carry
  rw [hlow, hhigh]
  exact Nat.mod_add_div _ radix

/-! ### Quotient -/

/-- A quotient fits a limb, because the remainder brought along is smaller than the divisor. -/
theorem quotient_lt_radix {divisor rem : Nat} (h : rem < divisor) (limb : UInt64) :
    (rem * radix + limb.toNat) / divisor < radix := by
  refine Nat.div_lt_of_lt_mul ?_
  calc rem * radix + limb.toNat
      < rem * radix + radix := Nat.add_lt_add_left (toNat_lt_radix limb) _
    _ = (rem + 1) * radix := by ring
    _ ≤ divisor * radix := Nat.mul_le_mul_right radix h

/-- Nothing is cut off when quotient and remainder of a step are put into limbs. -/
theorem divStep_toNat {divisor rem : UInt64} (h : rem.toNat < divisor.toNat) (limb : UInt64) :
    (divStep divisor rem limb).1.toNat = (rem.toNat * radix + limb.toNat) / divisor.toNat ∧
      (divStep divisor rem limb).2.toNat = (rem.toNat * radix + limb.toNat) % divisor.toNat := by
  have hrem : (rem.toNat * radix + limb.toNat) % divisor.toNat < divisor.toNat :=
    Nat.mod_lt _ (Nat.zero_lt_of_lt h)
  constructor
  · exact toNat_ofNat_of_lt (quotient_lt_radix h limb)
  · exact toNat_ofNat_of_lt (Nat.lt_trans hrem (toNat_lt_radix divisor))

theorem divStep_value {divisor rem : UInt64} (h : rem.toNat < divisor.toNat) (limb : UInt64) :
    (divStep divisor rem limb).1.toNat * divisor.toNat + (divStep divisor rem limb).2.toNat =
        rem.toNat * radix + limb.toNat ∧
      (divStep divisor rem limb).2.toNat < divisor.toNat := by
  obtain ⟨hquot, hrem⟩ := divStep_toNat h limb
  rw [hquot, hrem]
  exact ⟨Nat.div_add_mod' _ _, Nat.mod_lt _ (Nat.zero_lt_of_lt h)⟩

/-! ### Bits -/

/-- The bit that leaves a limb at the top when all bits go one place up. -/
theorem toNat_topBit (x : UInt64) : (x >>> 63).toNat = x.toNat / 2 ^ 63 := by
  rw [UInt64.toNat_shiftRight, Nat.shiftRight_eq_div_pow]
  rfl

theorem toNat_topBit_lt (x : UInt64) : (x >>> 63).toNat < 2 := by
  have hx := x.toNat_lt
  rw [toNat_topBit]
  omega

/-- Moving all bits up doubles a limb, and the bit brought in takes the place that is free. -/
theorem pushBit_value (x low : UInt64) (h : low.toNat < 2) :
    ((x <<< 1) ||| low).toNat + radix * (x >>> 63).toNat = 2 * x.toNat + low.toNat := by
  have hx := x.toNat_lt
  have hdouble : (x <<< 1).toNat = 2 ^ 1 * (x.toNat % 2 ^ 63) := by
    rw [UInt64.toNat_shiftLeft, Nat.shiftLeft_eq, show (1 : UInt64).toNat % 64 = 1 from rfl]
    omega
  rw [UInt64.toNat_or, hdouble, ← Nat.two_pow_add_eq_or_of_lt h, toNat_topBit, radix_eq]
  omega

theorem toNat_lt_two_pow_bitLength (x : UInt64) : x.toNat < 2 ^ bitLength x := by
  by_cases h : x = 0
  · subst h
    decide
  · rw [bitLength, if_neg h]
    exact Nat.lt_log2_self

end DynamicQuorum.Limb
