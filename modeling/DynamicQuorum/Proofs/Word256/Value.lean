/-
  DynamicQuorum/Proofs/Word256/Value.lean
  =======================================
  **The number that a word stands for.**

  `toNat` is the one view of a word through which every operation is specified.  It is
  injective, its values are the numbers below `size`, and `ofNat` is its inverse there.  The
  order of words, taken limb by limb from the top, is the order of their numbers, and the bits
  of a word are the binary digits of its number.
-/
import DynamicQuorum.Word256.Basic
import DynamicQuorum.Proofs.Word256.Limb

namespace DynamicQuorum.Word256

open Limb (radix radix_eq radix_pos toNat_lt_radix)

theorem size_eq : size = 2 ^ 256 := rfl

theorem toNat_mk (l0 l1 l2 l3 : UInt64) :
    (mk l0 l1 l2 l3).toNat =
      l0.toNat + radix * (l1.toNat + radix * (l2.toNat + radix * l3.toNat)) := rfl

theorem toNat_lt (w : Word256) : w.toNat < size := by
  have h0 := w.l0.toNat_lt
  have h1 := w.l1.toNat_lt
  have h2 := w.l2.toNat_lt
  have h3 := w.l3.toNat_lt
  simp only [toNat, radix_eq, size_eq]
  omega

/-- Words with one number are the same. -/
theorem toNat_injective {a b : Word256} (h : a.toNat = b.toNat) : a = b := by
  have ha0 := a.l0.toNat_lt
  have ha1 := a.l1.toNat_lt
  have ha2 := a.l2.toNat_lt
  have hb0 := b.l0.toNat_lt
  have hb1 := b.l1.toNat_lt
  have hb2 := b.l2.toNat_lt
  simp only [toNat, radix_eq] at h
  have h0 : a.l0 = b.l0 := UInt64.toNat_inj.mp (by omega)
  have h1 : a.l1 = b.l1 := UInt64.toNat_inj.mp (by omega)
  have h2 : a.l2 = b.l2 := UInt64.toNat_inj.mp (by omega)
  have h3 : a.l3 = b.l3 := UInt64.toNat_inj.mp (by omega)
  cases a
  cases b
  simp_all

theorem toNat_inj {a b : Word256} : a.toNat = b.toNat ↔ a = b :=
  ⟨toNat_injective, congrArg toNat⟩

/-! ### Words of numbers -/

theorem toNat_ofNat (n : Nat) : (ofNat n).toNat = n % size := by
  simp only [toNat, ofNat, Limb.toNat_ofNat, radix_eq, size_eq]
  omega

theorem toNat_ofNat_of_lt {n : Nat} (h : n < size) : (ofNat n).toNat = n := by
  rw [toNat_ofNat, Nat.mod_eq_of_lt h]

@[simp] theorem ofNat_toNat (w : Word256) : ofNat w.toNat = w :=
  toNat_injective (toNat_ofNat_of_lt w.toNat_lt)

/-- A word that stands for `n`, if there is one, is the word of `n`. -/
theorem word?_eq_some {n : Nat} {v : Word256} :
    (if n < size then some (ofNat n) else none) = some v ↔ v.toNat = n := by
  constructor
  · intro h
    split at h
    next hlt =>
      cases h
      exact toNat_ofNat_of_lt hlt
    next => cases h
  · intro h
    rw [← h, if_pos v.toNat_lt, ofNat_toNat]

theorem word?_eq_none {n : Nat} :
    (if n < size then some (ofNat n) else none) = none ↔ size ≤ n := by
  split
  next hlt => simpa using hlt
  next hle => simpa using hle

@[simp] theorem toNat_zero : zero.toNat = 0 := rfl

@[simp] theorem toNat_ofUInt64 (x : UInt64) : (ofUInt64 x).toNat = x.toNat := by
  simp [ofUInt64, toNat]

@[simp] theorem toNat_ofUInt16 (x : UInt16) : (ofUInt16 x).toNat = x.toNat := by
  simp [ofUInt16]

theorem toNat_eq_zero {w : Word256} : w.toNat = 0 ↔ w = zero := by
  rw [← toNat_zero, toNat_inj]

theorem isZero_iff {w : Word256} : w.isZero = true ↔ w.toNat = 0 := by
  rw [isZero, decide_eq_true_iff, toNat_eq_zero]

/-- The high limbs are zero exactly when the number fits the lowest one. -/
theorem high_limbs_zero_iff (w : Word256) :
    (w.l1 = 0 ∧ w.l2 = 0 ∧ w.l3 = 0) ↔ w.toNat < radix := by
  have h0 := w.l0.toNat_lt
  have h1 := w.l1.toNat_lt
  have h2 := w.l2.toNat_lt
  simp only [← UInt64.toNat_inj, UInt64.toNat_zero, toNat, radix_eq]
  omega

theorem toNat_eq_of_high_limbs_zero {w : Word256} (h : w.l1 = 0 ∧ w.l2 = 0 ∧ w.l3 = 0) :
    w.toNat = w.l0.toNat := by
  simp [toNat, h.1, h.2.1, h.2.2]

theorem toUInt64?_eq (w : Word256) :
    w.toUInt64? = if w.toNat < radix then some (UInt64.ofNat w.toNat) else none := by
  by_cases h : w.l1 = 0 ∧ w.l2 = 0 ∧ w.l3 = 0
  · rw [toUInt64?, if_pos h, if_pos ((high_limbs_zero_iff w).mp h),
      toNat_eq_of_high_limbs_zero h, UInt64.ofNat_toNat]
  · rw [toUInt64?, if_neg h, if_neg (mt (high_limbs_zero_iff w).mpr h)]

/-! ### Order -/

/-- Numbers of two digits compare by the high digit first. -/
theorem compare_digits {l l' h h' r : Nat} (hl : l < r) (hl' : l' < r) :
    compare (l + r * h) (l' + r * h') = (compare h h').then (compare l l') := by
  rcases Nat.lt_trichotomy h h' with hlt | rfl | hgt
  · -- the higher digit outweighs whatever the lower one is
    have hr : r * (h + 1) ≤ r * h' := Nat.mul_le_mul_left r hlt
    rw [Nat.compare_eq_lt.mpr hlt, Nat.compare_eq_lt.mpr (by rw [Nat.mul_succ] at hr; omega)]
    rfl
  · rw [Nat.compare_eq_eq.mpr rfl, Ordering.eq_then]
    rcases Nat.lt_trichotomy l l' with hll | rfl | hgl
    · rw [Nat.compare_eq_lt.mpr hll, Nat.compare_eq_lt.mpr (by omega)]
    · rw [Nat.compare_eq_eq.mpr rfl, Nat.compare_eq_eq.mpr rfl]
    · rw [Nat.compare_eq_gt.mpr hgl, Nat.compare_eq_gt.mpr (by omega)]
  · have hr : r * (h' + 1) ≤ r * h := Nat.mul_le_mul_left r hgt
    rw [Nat.compare_eq_gt.mpr hgt, Nat.compare_eq_gt.mpr (by rw [Nat.mul_succ] at hr; omega)]
    rfl

theorem compare_limb (a b : UInt64) : compare a b = compare a.toNat b.toNat := by
  simp only [compare, compareOfLessAndEq, UInt64.lt_iff_toNat_lt, UInt64.toNat_inj]

theorem compare_eq (a b : Word256) : compare a b = compare a.toNat b.toNat := by
  have hstep : compare a b =
      (compare a.l3 b.l3).then ((compare a.l2 b.l2).then
        ((compare a.l1 b.l1).then (compare a.l0 b.l0))) := rfl
  simp only [toNat]
  rw [compare_digits (toNat_lt_radix _) (toNat_lt_radix _),
    compare_digits (toNat_lt_radix _) (toNat_lt_radix _),
    compare_digits (toNat_lt_radix _) (toNat_lt_radix _), hstep]
  simp only [compare_limb, Ordering.then_assoc]

theorem lt_iff {a b : Word256} : a < b ↔ a.toNat < b.toNat := by
  rw [show a < b ↔ compare a b = .lt from Iff.rfl, compare_eq, Nat.compare_eq_lt]

theorem le_iff {a b : Word256} : a ≤ b ↔ a.toNat ≤ b.toNat := by
  rw [show a ≤ b ↔ (compare a b).isLE = true from Iff.rfl, compare_eq, Nat.isLE_compare]

/-! ### Bits -/

/-- The digits of a number from which the lowest 64 are split off. -/
theorem testBit_limb_add (x : UInt64) (rest pos : Nat) :
    (x.toNat + radix * rest).testBit pos =
      if pos < 64 then x.toNat.testBit pos else rest.testBit (pos - 64) := by
  rw [Nat.add_comm, radix_eq, Nat.testBit_two_pow_mul_add rest x.toNat_lt]

/-- The bits of a word are those of its number. -/
theorem bit_eq (w : Word256) (pos : Nat) : w.bit pos = w.toNat.testBit pos := by
  have hout : (0 : Nat).testBit (pos - 64 - 64 - 64 - 64) = false := Nat.zero_testBit _
  have hsplit : w.toNat = w.l0.toNat + radix * (w.l1.toNat + radix * (w.l2.toNat +
      radix * (w.l3.toNat + radix * 0))) := by simp [toNat]
  rw [hsplit]
  simp only [testBit_limb_add]
  by_cases h0 : pos < 64
  · rw [if_pos h0, bit, show pos / 64 = 0 by omega, show pos % 64 = pos by omega]
    rfl
  by_cases h1 : pos - 64 < 64
  · rw [if_neg h0, if_pos h1, bit, show pos / 64 = 1 by omega,
      show pos % 64 = pos - 64 by omega]
    rfl
  by_cases h2 : pos - 64 - 64 < 64
  · rw [if_neg h0, if_neg h1, if_pos h2, bit, show pos / 64 = 2 by omega,
      show pos % 64 = pos - 64 - 64 by omega]
    rfl
  by_cases h3 : pos - 64 - 64 - 64 < 64
  · rw [if_neg h0, if_neg h1, if_neg h2, if_pos h3, bit, show pos / 64 = 3 by omega,
      show pos % 64 = pos - 64 - 64 - 64 by omega]
    rfl
  · rw [if_neg h0, if_neg h1, if_neg h2, if_neg h3, hout, bit,
      show pos / 64 = (pos / 64 - 4) + 4 by omega]
    exact Nat.zero_testBit _

/-- Bringing in a bit at the bottom doubles a word; the bit that leaves it at the top has the
    weight `size`. -/
theorem pushBit_value (w : Word256) (b : Bool) :
    (w.pushBit b).1.toNat + size * (w.pushBit b).2.toNat = 2 * w.toNat + b.toNat := by
  have h0 := Limb.pushBit_value w.l0 b.toUInt64 (by cases b <;> decide)
  have h1 := Limb.pushBit_value w.l1 _ (Limb.toNat_topBit_lt w.l0)
  have h2 := Limb.pushBit_value w.l2 _ (Limb.toNat_topBit_lt w.l1)
  have h3 := Limb.pushBit_value w.l3 _ (Limb.toNat_topBit_lt w.l2)
  have htop := Limb.toNat_topBit_lt w.l3
  have hspill : (decide (w.l3 >>> 63 = 1)).toNat = (w.l3 >>> 63).toNat := by
    by_cases h : w.l3 >>> 63 = 1
    · simp [h]
    · have hne : (w.l3 >>> 63).toNat ≠ 1 := fun he => h (UInt64.toNat_inj.mp he)
      simp only [h, decide_false, Bool.toNat_false]
      omega
  simp only [pushBit, hspill, toNat, size_eq, radix_eq, Limb.toNat_toUInt64] at *
  omega

theorem add_two_pow_mul_lt {low high m n : Nat} (hlow : low < 2 ^ m) (hhigh : high < 2 ^ n) :
    low + 2 ^ m * high < 2 ^ (m + n) := by
  calc low + 2 ^ m * high
      < 2 ^ m + 2 ^ m * high := Nat.add_lt_add_right hlow _
    _ = 2 ^ m * (high + 1) := by ring
    _ ≤ 2 ^ m * 2 ^ n := Nat.mul_le_mul_left _ hhigh
    _ = 2 ^ (m + n) := (Nat.pow_add 2 m n).symm

/-- No bit beyond `bitLength` is set. -/
theorem toNat_lt_two_pow_bitLength (w : Word256) : w.toNat < 2 ^ w.bitLength := by
  have h0 := w.l0.toNat_lt
  have h1 := w.l1.toNat_lt
  have h2 := w.l2.toNat_lt
  have hl0 := Limb.toNat_lt_two_pow_bitLength w.l0
  have hl1 := Limb.toNat_lt_two_pow_bitLength w.l1
  have hl2 := Limb.toNat_lt_two_pow_bitLength w.l2
  have hl3 := Limb.toNat_lt_two_pow_bitLength w.l3
  simp only [bitLength, toNat, radix_eq]
  split
  · -- the highest limb that is not zero decides
    have hlow : w.l0.toNat + 2 ^ 64 * (w.l1.toNat + 2 ^ 64 * w.l2.toNat) < 2 ^ 192 := by omega
    have hsum := add_two_pow_mul_lt hlow hl3
    omega
  next hz3 =>
    have hz3' : w.l3.toNat = 0 := by simp [not_not.mp hz3]
    split
    · have hlow : w.l0.toNat + 2 ^ 64 * w.l1.toNat < 2 ^ 128 := by omega
      have hsum := add_two_pow_mul_lt hlow hl2
      omega
    next hz2 =>
      have hz2' : w.l2.toNat = 0 := by simp [not_not.mp hz2]
      split
      · have hsum := add_two_pow_mul_lt h0 hl1
        omega
      next hz1 =>
        have hz1' : w.l1.toNat = 0 := by simp [not_not.mp hz1]
        omega

end DynamicQuorum.Word256
