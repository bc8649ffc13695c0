/-
  DynamicQuorum/Proofs/Json/Number.lean
  =====================================
  **A numeral that was written is read as its number.**

  All digits of a 64-bit number find room in the significand, so its numeral is not scaled;
  rounded to double precision it at most doubles, far below the limit.
-/
import DynamicQuorum.Json.Number
import DynamicQuorum.Proofs.Text.Digits

namespace DynamicQuorum

namespace Text

theorem roundToDouble_le (n : Nat) : roundToDouble n ≤ n + 2 ^ (n.log2 + 1 - 53) := by
  have hdown : n / 2 ^ (n.log2 + 1 - 53) * 2 ^ (n.log2 + 1 - 53) ≤ n := Nat.div_mul_le_self _ _
  rw [roundToDouble]
  dsimp only [Nat.pow_eq]
  split
  · rw [Nat.add_one_mul]
    omega
  · omega

/-- A 64-bit number stays in the range of double precision. -/
theorem roundToDouble_lt_doubleLimit {n : Nat} (h : n < UInt64.size) :
    roundToDouble n * roundToDouble (Nat.pow 10 0) < doubleLimit := by
  -- of 64 bits at most the lowest twelve are rounded away
  have hbits : n.log2 + 1 - 53 ≤ 12 := by
    rcases Nat.eq_zero_or_pos n with rfl | hn
    · decide
    · have hlog : n.log2 < 64 := (Nat.log2_lt (Nat.ne_of_gt hn)).mpr h
      omega
  have hunit : 2 ^ (n.log2 + 1 - 53) ≤ 2 ^ 12 := Nat.pow_le_pow_right (by decide) hbits
  have hle := roundToDouble_le n
  have hone : roundToDouble (Nat.pow 10 0) = 1 := by decide
  have hlimit : UInt64.size + 2 ^ 12 < doubleLimit := by decide +kernel
  rw [hone, Nat.mul_one]
  omega

end Text

namespace Json.Number

theorem ofDigits_digits (n : Nat) : ofDigits (digits n) = n := by
  have hfold : ofDigits (digits n) = Nat.ofDigitChars 10 (Nat.toDigits 10 n) 0 := by
    rw [ofDigits, digits, List.foldl_map, Nat.ofDigitChars_eq_foldl]
    simp only [Nat.mul_comm 10]
  rw [hfold, Nat.ofDigitChars_ten_toDigits]

theorem natural?_ofInt {n : Nat} (h : n < UInt64.size) :
    (ofInt n).natural? = some (UInt64.ofNat n) := by
  have hwhole : (ofInt n).whole = digits n := rfl
  rw [natural?, hwhole, ofDigits_digits, if_pos ⟨rfl, rfl, rfl, h⟩]

theorem le_foldl (digits : List Nat) (acc : Nat) :
    acc ≤ digits.foldl (fun acc d => acc * 10 + d) acc := by
  induction digits generalizing acc with
  | nil => exact Nat.le_refl acc
  | cons d rest ih => exact Nat.le_trans (by omega) (ih (acc * 10 + d))

/-- Digits of a 64-bit number all find room. -/
theorem extend_eq {digits : List Nat} {acc : Nat}
    (h : digits.foldl (fun acc d => acc * 10 + d) acc < UInt64.size) :
    extend acc digits = (digits.foldl (fun acc d => acc * 10 + d) acc, digits.length) := by
  induction digits generalizing acc with
  | nil => rfl
  | cons d rest ih =>
    rw [List.foldl_cons] at h
    rw [extend, if_pos (Nat.lt_of_le_of_lt (le_foldl rest _) h), ih h]
    rfl

theorem overflows_ofInt {n : Nat} (h : n < UInt64.size) : (ofInt n).overflows = false := by
  have hextend : extend 0 (digits n) = (n, (digits n).length) := by
    have hfold : (digits n).foldl (fun acc d => acc * 10 + d) 0 = n := ofDigits_digits n
    have hfits : (digits n).foldl (fun acc d => acc * 10 + d) 0 < UInt64.size := hfold.symm ▸ h
    rw [extend_eq hfits, hfold]
  have hwhole : (ofInt n).whole = digits n := rfl
  have hlimit := Text.roundToDouble_lt_doubleLimit h
  rw [overflows, hwhole, hextend]
  -- all digits have found room, so the exponent is zero
  have hexponent : ((digits n).length - (digits n).length : Nat) - ((0 : Nat) : Int) = 0 := by omega
  simp only [ofInt, extend, hexponent, Int.toNat_zero, decide_eq_false (Nat.not_le.mpr hlimit)]
  simp

end Json.Number

end DynamicQuorum
