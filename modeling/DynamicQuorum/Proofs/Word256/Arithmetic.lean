/-
  DynamicQuorum/Proofs/Word256/Arithmetic.lean
  ============================================
  **Checked arithmetic is exact.**

  Every operation is the one of the natural numbers, cut off where the result is no word: a
  sum or a product is `none` exactly when it reaches `size`, a difference when it would be
  negative, a quotient only for the divisor zero.

  Chains of limb steps are added up with their weights.  Long division keeps the invariant
  that quotient and remainder so far are those of the bits already brought down; it holds the
  quotient below `size` as well, since the quotient never exceeds the dividend.
-/
import DynamicQuorum.Word256.Arithmetic
import DynamicQuorum.Proofs.Word256.Value

namespace DynamicQuorum.Word256

open Limb (radix radix_eq radix_pos)

/-! ### Sum and difference -/

theorem addCarry_value (a b : Word256) :
    (addCarry a b).1.toNat + size * (addCarry a b).2.toNat = a.toNat + b.toNat := by
  have h0 := Limb.addCarry_value a.l0 b.l0 false
  have h1 := Limb.addCarry_value a.l1 b.l1 (Limb.addCarry a.l0 b.l0 false).2
  have h2 := Limb.addCarry_value a.l2 b.l2
    (Limb.addCarry a.l1 b.l1 (Limb.addCarry a.l0 b.l0 false).2).2
  have h3 := Limb.addCarry_value a.l3 b.l3
    (Limb.addCarry a.l2 b.l2 (Limb.addCarry a.l1 b.l1 (Limb.addCarry a.l0 b.l0 false).2).2).2
  simp only [addCarry, toNat, radix_eq, size_eq, Bool.toNat_false] at *
  omega

theorem subBorrow_value (a b : Word256) :
    (subBorrow a b).1.toNat + b.toNat = a.toNat + size * (subBorrow a b).2.toNat := by
  have h0 := Limb.subBorrow_value a.l0 b.l0 false
  have h1 := Limb.subBorrow_value a.l1 b.l1 (Limb.subBorrow a.l0 b.l0 false).2
  have h2 := Limb.subBorrow_value a.l2 b.l2
    (Limb.subBorrow a.l1 b.l1 (Limb.subBorrow a.l0 b.l0 false).2).2
  have h3 := Limb.subBorrow_value a.l3 b.l3
    (Limb.subBorrow a.l2 b.l2 (Limb.subBorrow a.l1 b.l1 (Limb.subBorrow a.l0 b.l0 false).2).2).2
  simp only [subBorrow, toNat, radix_eq, size_eq, Bool.toNat_false] at *
  omega

/-- The sum, unless it leaves the range. -/
theorem add?_eq (a b : Word256) :
    a.add? b = if a.toNat + b.toNat < size then some (ofNat (a.toNat + b.toNat)) else none := by
  have hsum := addCarry_value a b
  have hlow := (addCarry a b).1.toNat_lt
  cases hcarry : (addCarry a b).2 with
  | false =>
    rw [hcarry, Bool.toNat_false, Nat.mul_zero, Nat.add_zero] at hsum
    rw [if_pos (hsum ▸ hlow), ← hsum, ofNat_toNat]
    simp [add?, hcarry]
  | true =>
    rw [hcarry, Bool.toNat_true, Nat.mul_one] at hsum
    rw [if_neg (by omega)]
    simp [add?, hcarry]

/-! ### Product -/

/-- A row adds its factor times the word to its window. -/
theorem mulRow_value (a : UInt64) (b window : Word256) :
    (mulRow a b window).1.toNat + size * (mulRow a b window).2.toNat =
      window.toNat + a.toNat * b.toNat := by
  by_cases h : a = 0
  · simp [mulRow, h]
  · have h0 := Limb.mulAdd_value window.l0 a b.l0 0
    have h1 := Limb.mulAdd_value window.l1 a b.l1 (Limb.mulAdd window.l0 a b.l0 0).2
    have h2 := Limb.mulAdd_value window.l2 a b.l2
      (Limb.mulAdd window.l1 a b.l1 (Limb.mulAdd window.l0 a b.l0 0).2).2
    have h3 := Limb.mulAdd_value window.l3 a b.l3
      (Limb.mulAdd window.l2 a b.l2
        (Limb.mulAdd window.l1 a b.l1 (Limb.mulAdd window.l0 a b.l0 0).2).2).2
    -- the word limb by limb, as the row goes along it
    have hrow : a.toNat * b.toNat = a.toNat * b.l0.toNat + radix * (a.toNat * b.l1.toNat +
        radix * (a.toNat * b.l2.toNat + radix * (a.toNat * b.l3.toNat))) := by
      rw [toNat]
      ring
    rw [hrow]
    simp only [mulRow, if_neg h, toNat, radix_eq, size_eq, UInt64.toNat_zero] at *
    omega

/-- A row is its lowest limb and, one place up, the window of the next row. -/
theorem row_value (row : Word256 × UInt64) :
    row.1.toNat + size * row.2.toNat = row.1.l0.toNat + radix * (nextWindow row).toNat := by
  simp only [nextWindow, toNat, radix_eq, size_eq]
  omega

/-- The four rows hold the whole product. -/
theorem wideMul_value (a b : Word256) :
    (wideMul a b).1.toNat + size * (wideMul a b).2.toNat = a.toNat * b.toNat := by
  have h0 := mulRow_value a.l0 b zero
  have h1 := mulRow_value a.l1 b (nextWindow (mulRow a.l0 b zero))
  have h2 := mulRow_value a.l2 b (nextWindow (mulRow a.l1 b (nextWindow (mulRow a.l0 b zero))))
  have h3 := mulRow_value a.l3 b (nextWindow (mulRow a.l2 b
    (nextWindow (mulRow a.l1 b (nextWindow (mulRow a.l0 b zero))))))
  rw [row_value] at h0 h1 h2 h3
  have hprod : a.toNat * b.toNat = a.l0.toNat * b.toNat + radix * (a.l1.toNat * b.toNat +
      radix * (a.l2.toNat * b.toNat + radix * (a.l3.toNat * b.toNat))) := by
    rw [toNat]
    ring
  rw [hprod, wideMul]
  simp only [toNat_zero] at h0
  simp only [toNat_mk, radix_eq, size_eq] at *
  omega

/-- The product, unless it leaves the range. -/
theorem mul?_eq (a b : Word256) :
    a.mul? b = if a.toNat * b.toNat < size then some (ofNat (a.toNat * b.toNat)) else none := by
  have hprod := wideMul_value a b
  have hlow := (wideMul a b).1.toNat_lt
  by_cases hhigh : (wideMul a b).2 = zero
  · rw [hhigh, toNat_zero, Nat.mul_zero, Nat.add_zero] at hprod
    rw [if_pos (hprod ▸ hlow), ← hprod, ofNat_toNat]
    simp [mul?, hhigh]
  · have hpos : 1 ≤ (wideMul a b).2.toNat :=
      Nat.one_le_iff_ne_zero.mpr (mt toNat_eq_zero.mp hhigh)
    -- a high word that is not zero is out of range by itself
    have hsize : size * 1 ≤ size * (wideMul a b).2.toNat := Nat.mul_le_mul_left size hpos
    rw [if_neg (by omega)]
    simp [mul?, hhigh]

/-! ### Quotient and remainder -/

theorem divModLimb_value (n : Word256) {divisor : UInt64} (h : 0 < divisor.toNat) :
    (divModLimb n divisor).1.toNat * divisor.toNat + (divModLimb n divisor).2.toNat = n.toNat ∧
      (divModLimb n divisor).2.toNat < divisor.toNat := by
  have hstart : (0 : UInt64).toNat < divisor.toNat := h
  obtain ⟨h3, hr3⟩ := Limb.divStep_value hstart n.l3
  obtain ⟨h2, hr2⟩ := Limb.divStep_value hr3 n.l2
  obtain ⟨h1, hr1⟩ := Limb.divStep_value hr2 n.l1
  obtain ⟨h0, hr0⟩ := Limb.divStep_value hr1 n.l0
  refine ⟨?_, hr0⟩
  simp only [divModLimb, toNat, radix_eq, UInt64.toNat_zero] at *
  linarith

/-- The bits of a number from a place on: those above it, and the one in it. -/
theorem div_two_pow_eq (n pos : Nat) :
    n / 2 ^ pos = 2 * (n / 2 ^ (pos + 1)) + (n.testBit pos).toNat := by
  rw [Nat.toNat_testBit, Nat.pow_succ, ← Nat.div_div_eq_div_mul]
  omega

theorem pushBit_exact {w : Word256} {b : Bool} (h : 2 * w.toNat + b.toNat < size) :
    (w.pushBit b).1.toNat = 2 * w.toNat + b.toNat := by
  have hvalue := pushBit_value w b
  cases hspill : (w.pushBit b).2 with
  | false => simpa [hspill] using hvalue
  | true =>
    rw [hspill, Bool.toNat_true, Nat.mul_one] at hvalue
    omega

/-- The test of a division step: whether the divisor fits the remainder with the new bit. -/
theorem divStep_test {r d : Word256} {b : Bool} :
    ((r.pushBit b).2 || decide (d ≤ (r.pushBit b).1)) = true ↔
      d.toNat ≤ 2 * r.toNat + b.toNat := by
  have hvalue := pushBit_value r b
  have hd := d.toNat_lt
  have hlow := (r.pushBit b).1.toNat_lt
  rw [Bool.or_eq_true, decide_eq_true_iff, le_iff]
  cases hspill : (r.pushBit b).2 with
  | false =>
    rw [hspill, Bool.toNat_false, Nat.mul_zero, Nat.add_zero] at hvalue
    rw [hvalue]
    simp
  | true =>
    rw [hspill, Bool.toNat_true, Nat.mul_one] at hvalue
    -- a bit that leaves the word is worth more than any divisor
    simp only [true_or, true_iff]
    omega

/-- The subtraction of a division step, which may take back a bit that spilled. -/
theorem divStep_rest {r d : Word256} {b : Bool} (hr : r.toNat < d.toNat)
    (h : d.toNat ≤ 2 * r.toNat + b.toNat) :
    (subBorrow (r.pushBit b).1 d).1.toNat = 2 * r.toNat + b.toNat - d.toNat := by
  have hvalue := pushBit_value r b
  have hrest := subBorrow_value (r.pushBit b).1 d
  have hd := d.toNat_lt
  have hlow := (r.pushBit b).1.toNat_lt
  have hout := (subBorrow (r.pushBit b).1 d).1.toNat_lt
  have hb := b.toNat_le
  cases hspill : (r.pushBit b).2 <;> cases hborrow : (subBorrow (r.pushBit b).1 d).2 <;>
    simp only [hspill, hborrow, Bool.toNat_false, Bool.toNat_true, Nat.mul_zero, Nat.mul_one]
      at hvalue hrest <;> omega

/-- What long division has reached when the lowest `pos` bits of `n` are still to come:
    quotient and remainder of the bits above them. -/
def DividedTo (n d : Word256) (pos : Nat) (acc : Word256 × Word256) : Prop :=
  n.toNat / 2 ^ pos = acc.1.toNat * d.toNat + acc.2.toNat ∧ acc.2.toNat < d.toNat

/-- A quotient never exceeds its dividend, so it is a word. -/
theorem quotient_lt_size {n d : Word256} {pos q r : Nat} (hd : 0 < d.toNat)
    (h : n.toNat / 2 ^ pos = q * d.toNat + r) : q < size := by
  have hq : q ≤ q * d.toNat := Nat.le_mul_of_pos_right q hd
  have hle : n.toNat / 2 ^ pos ≤ n.toNat := Nat.div_le_self _ _
  have hn := n.toNat_lt
  omega

/-- One more bit of the dividend keeps what long division has reached. -/
theorem DividedTo.step {n d : Word256} {pos : Nat} {acc : Word256 × Word256}
    (h : DividedTo n d (pos + 1) acc) : DividedTo n d pos (divStep d (n.bit pos) acc) := by
  obtain ⟨hquot, hrem⟩ := h
  have hd : 0 < d.toNat := by omega
  have hnext : n.toNat / 2 ^ pos =
      2 * (acc.1.toNat * d.toNat + acc.2.toNat) + (n.bit pos).toNat := by
    rw [div_two_pow_eq, hquot, bit_eq]
  by_cases htest : d.toNat ≤ 2 * acc.2.toNat + (n.bit pos).toNat
  · -- the divisor fits: a one goes to the quotient, and the divisor leaves the remainder
    have hsplit : n.toNat / 2 ^ pos = (2 * acc.1.toNat + true.toNat) * d.toNat +
        (2 * acc.2.toNat + (n.bit pos).toNat - d.toNat) := by
      rw [hnext, Bool.toNat_true, Nat.add_mul, Nat.one_mul, Nat.mul_add, Nat.mul_assoc]
      omega
    have hb := (n.bit pos).toNat_le
    rw [divStep, if_pos (divStep_test.mpr htest)]
    refine ⟨?_, ?_⟩
    · rw [pushBit_exact (quotient_lt_size hd hsplit), divStep_rest hrem htest, hsplit]
    · rw [divStep_rest hrem htest]
      omega
  · -- it does not fit: a zero goes to the quotient, and the remainder only grows
    have hsplit : n.toNat / 2 ^ pos = (2 * acc.1.toNat + false.toNat) * d.toNat +
        (2 * acc.2.toNat + (n.bit pos).toNat) := by
      rw [hnext, Bool.toNat_false, Nat.add_zero, Nat.mul_add, Nat.mul_assoc, Nat.add_assoc]
    have hexact : (acc.2.pushBit (n.bit pos)).1.toNat = 2 * acc.2.toNat + (n.bit pos).toNat :=
      pushBit_exact (by have := d.toNat_lt; omega)
    rw [divStep, if_neg (mt divStep_test.mp htest)]
    refine ⟨?_, ?_⟩
    · rw [pushBit_exact (quotient_lt_size hd hsplit), hexact, hsplit]
    · rw [hexact]
      omega

theorem DividedTo.divModBits {n d : Word256} {pos : Nat} {acc : Word256 × Word256}
    (h : DividedTo n d pos acc) : DividedTo n d 0 (divModBits n d pos acc) := by
  induction pos generalizing acc with
  | zero => exact h
  | succ pos ih => exact ih h.step

/-! ### The paths of a division -/

def IsDivision (n d q r : Word256) : Prop :=
  n.toNat = q.toNat * d.toNat + r.toNat ∧ r.toNat < d.toNat

theorem IsDivision.toNat_eq {n d q r : Word256} (h : IsDivision n d q r) :
    q.toNat = n.toNat / d.toNat ∧ r.toNat = n.toNat % d.toNat := by
  obtain ⟨hsum, hlt⟩ := h
  obtain ⟨hq, hr⟩ : n.toNat / d.toNat = q.toNat ∧ n.toNat % d.toNat = r.toNat :=
    (Nat.div_mod_unique (Nat.zero_lt_of_lt hlt)).mpr ⟨by linarith, hlt⟩
  exact ⟨hq.symm, hr.symm⟩

theorem IsDivision.pair_eq {n d q r : Word256} (h : IsDivision n d q r) :
    (q, r) = (ofNat (n.toNat / d.toNat), ofNat (n.toNat % d.toNat)) := by
  obtain ⟨hq, hr⟩ := h.toNat_eq
  rw [← hq, ← hr, ofNat_toNat, ofNat_toNat]

/-- A dividend below the divisor is its own remainder. -/
theorem isDivision_of_lt {n d : Word256} (h : n < d) : IsDivision n d zero n := by
  refine ⟨?_, lt_iff.mp h⟩
  simp

theorem isDivision_divModLimb (n : Word256) {divisor : UInt64} (h : 0 < divisor.toNat) :
    IsDivision n (ofUInt64 divisor) (divModLimb n divisor).1
      (ofUInt64 (divModLimb n divisor).2) := by
  obtain ⟨hsum, hlt⟩ := divModLimb_value n h
  rw [IsDivision, toNat_ofUInt64, toNat_ofUInt64]
  exact ⟨hsum.symm, hlt⟩

theorem isDivision_divModBits {n d : Word256} (h : 0 < d.toNat) :
    IsDivision n d (divModBits n d n.bitLength (zero, zero)).1
      (divModBits n d n.bitLength (zero, zero)).2 := by
  have hstart : DividedTo n d n.bitLength (zero, zero) := by
    refine ⟨?_, h⟩
    rw [Nat.div_eq_of_lt n.toNat_lt_two_pow_bitLength]
    simp
  obtain ⟨hsum, hlt⟩ := hstart.divModBits
  rw [Nat.pow_zero, Nat.div_one] at hsum
  exact ⟨hsum, hlt⟩

/-- Division is that of the natural numbers, on each of its three paths. -/
theorem divMod?_eq (n d : Word256) :
    n.divMod? d = if d.toNat = 0 then none
      else some (ofNat (n.toNat / d.toNat), ofNat (n.toNat % d.toNat)) := by
  by_cases hzero : d = zero
  · rw [divMod?, if_pos hzero, if_pos (toNat_eq_zero.mpr hzero)]
  have hpos : 0 < d.toNat := Nat.pos_of_ne_zero (mt toNat_eq_zero.mp hzero)
  rw [divMod?, if_neg hzero, if_neg (Nat.ne_of_gt hpos)]
  split
  next hlt => exact congrArg some (isDivision_of_lt hlt).pair_eq
  split
  next hlimb =>
    have hd : d = ofUInt64 d.l0 := toNat_injective (by
      rw [toNat_eq_of_high_limbs_zero hlimb, toNat_ofUInt64])
    rw [toNat_eq_of_high_limbs_zero hlimb] at hpos
    have hpair := (isDivision_divModLimb n hpos).pair_eq
    rw [← hd] at hpair
    exact congrArg some hpair
  next => exact congrArg some (isDivision_divModBits hpos).pair_eq

theorem div?_eq (n d : Word256) :
    n.div? d = if d.toNat = 0 then none else some (ofNat (n.toNat / d.toNat)) := by
  rw [div?, divMod?_eq]
  split <;> rfl

end DynamicQuorum.Word256
