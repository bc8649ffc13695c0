/-
  DynamicQuorum/Proofs/Text/Digits.lean
  =====================================
  **Decimal numerals, digit by digit.**

  The numeral of a number is that of its tenth with one more digit behind it.  So a numeral
  splits at any place into that of the high part and that of the low part filled up with zeros,
  and only that of zero starts with a zero.  Any digits make up the numeral of the number that they
  write, but for zeros in front.
-/
import DynamicQuorum.Text.Padding
import Mathlib.Data.Nat.Digits.Defs

namespace DynamicQuorum.Text

theorem toDigits_snoc {n d : Nat} (hn : 0 < n) (hd : d < 10) :
    Nat.toDigits 10 (n * 10 + d) = Nat.toDigits 10 n ++ [d.digitChar] := by
  rw [Nat.mul_comm, ← Nat.toDigits_of_lt_base hd]
  exact (Nat.toDigits_append_toDigits (by decide) hn hd).symm

theorem isDigit_of_mem_toDigits {n : Nat} {c : Char} (h : c ∈ Nat.toDigits 10 n) :
    c.isDigit = true :=
  Nat.isDigit_of_mem_toDigits (by decide) (by decide) h

theorem head_toDigits_ne_zero {n : Nat} (hn : 0 < n) {c : Char} {rest : List Char}
    (h : Nat.toDigits 10 n = c :: rest) : c ≠ '0' := by
  induction n using Nat.strongRecOn generalizing c rest with
  | ind n ih =>
    rw [Nat.toDigits_eq_if (by decide)] at h
    split at h
    next hsmall =>
      obtain ⟨rfl, -⟩ := List.cons.inj h
      have hdigit : ∀ d : Fin 10, 0 < d.val → d.val.digitChar ≠ '0' := by decide
      exact hdigit ⟨n, hsmall⟩ hn
    next hlarge =>
      cases hfront : Nat.toDigits 10 (n / 10) with
      | nil => exact absurd hfront Nat.toDigits_ne_nil
      | cons c' front =>
        rw [hfront] at h
        obtain ⟨rfl, -⟩ := List.cons.inj h
        exact ih (n / 10) (by omega) (by omega) hfront

/-- The numeral of a positive number starts with a digit that is not zero. -/
theorem toDigits_eq_cons {n : Nat} (hn : 0 < n) :
    ∃ c digits, Nat.toDigits 10 n = c :: digits ∧ c ≠ '0' ∧ c.isDigit = true ∧
      ∀ d ∈ digits, d.isDigit = true := by
  have hall : ∀ c ∈ Nat.toDigits 10 n, c.isDigit = true := fun c => isDigit_of_mem_toDigits
  cases hdigits : Nat.toDigits 10 n with
  | nil => exact absurd hdigits Nat.toDigits_ne_nil
  | cons c digits =>
    rw [hdigits] at hall
    obtain ⟨hc, hrest⟩ := List.forall_mem_cons.mp hall
    exact ⟨c, digits, rfl, head_toDigits_ne_zero hn hdigits, hc, hrest⟩

/-! ### Splitting -/

theorem zeroPad_snoc {k n d : Nat} (hk : 0 < k) (hd : d < 10) :
    zeroPad (k + 1) (Nat.toDigits 10 (n * 10 + d)) =
      zeroPad k (Nat.toDigits 10 n) ++ [d.digitChar] := by
  rcases Nat.eq_zero_or_pos n with rfl | hn
  · rw [Nat.zero_mul, Nat.zero_add, Nat.toDigits_of_lt_base hd, Nat.toDigits_zero, zeroPad,
      zeroPad]
    obtain ⟨k, rfl⟩ := Nat.exists_eq_add_of_lt hk
    simp [← List.replicate_succ']
  · rw [toDigits_snoc hn hd, zeroPad, zeroPad, List.length_append, List.length_singleton,
      Nat.add_sub_add_right, List.append_assoc]

/-- A numeral splits into that of a high part and the `k` places of a low part. -/
theorem toDigits_split {q r k : Nat} (hq : 0 < q) (hk : 0 < k) (hr : r < 10 ^ k) :
    Nat.toDigits 10 (q * 10 ^ k + r) =
      Nat.toDigits 10 q ++ zeroPad k (Nat.toDigits 10 r) := by
  induction k, hk using Nat.le_induction generalizing r with
  | base =>
    rw [Nat.pow_one] at hr ⊢
    rw [toDigits_snoc hq hr, Nat.toDigits_of_lt_base hr]
    rfl
  | succ k hk ih =>
    -- the last digit is split off, and the others by induction
    have htenth : r / 10 < 10 ^ k := by
      rw [Nat.pow_succ] at hr
      omega
    have hlast : r % 10 < 10 := Nat.mod_lt _ (by decide)
    have hpos : 0 < q * 10 ^ k + r / 10 :=
      Nat.lt_of_lt_of_le (Nat.mul_pos hq (Nat.pow_pos (by decide))) (Nat.le_add_right _ _)
    calc Nat.toDigits 10 (q * 10 ^ (k + 1) + r)
        = Nat.toDigits 10 ((q * 10 ^ k + r / 10) * 10 + r % 10) := by
          congr 1
          rw [Nat.pow_succ, Nat.add_mul, Nat.mul_assoc]
          omega
      _ = Nat.toDigits 10 q ++ zeroPad k (Nat.toDigits 10 (r / 10)) ++ [(r % 10).digitChar] := by
          rw [toDigits_snoc hpos hlast, ih htenth]
      _ = Nat.toDigits 10 q ++ zeroPad (k + 1) (Nat.toDigits 10 (r / 10 * 10 + r % 10)) := by
          rw [zeroPad_snoc hk hlast, List.append_assoc]
      _ = Nat.toDigits 10 q ++ zeroPad (k + 1) (Nat.toDigits 10 r) := by
          rw [show r / 10 * 10 + r % 10 = r by omega]

/-! ### Zeros in front -/

theorem digit_lt_ten {c : Char} (h : c.isDigit = true) : c.toNat - '0'.toNat < 10 := by
  have hc := (Char.isDigit_iff_toNat.mp h).2
  have hnine : '9'.toNat = '0'.toNat + 9 := rfl
  omega

theorem digitChar_digit {c : Char} (h : c.isDigit = true) :
    (c.toNat - '0'.toNat).digitChar = c := by
  have hlow := (Char.isDigit_iff_toNat.mp h).1
  have hzero : '0'.toNat = 48 := rfl
  apply Char.toNat_inj.mp
  rw [Nat.toNat_digitChar_of_lt_ten (digit_lt_ten h)]
  omega

theorem le_ofDigitChars (digits : List Char) (acc : Nat) :
    acc ≤ Nat.ofDigitChars 10 digits acc := by
  induction digits generalizing acc with
  | nil => exact Nat.le_refl acc
  | cons c rest ih =>
    rw [Nat.ofDigitChars_cons]
    exact Nat.le_trans (by omega) (ih _)

/-- Digits behind a numeral that is not zero make up the numeral of their number. -/
theorem toDigits_append {n : Nat} {digits : List Char} (hn : 0 < n)
    (h : ∀ c ∈ digits, c.isDigit = true) :
    Nat.toDigits 10 n ++ digits = Nat.toDigits 10 (Nat.ofDigitChars 10 digits n) := by
  induction digits generalizing n with
  | nil => rw [Nat.ofDigitChars_nil, List.append_nil]
  | cons c rest ih =>
    obtain ⟨hc, hrest⟩ := List.forall_mem_cons.mp h
    have hstep := toDigits_snoc hn (digit_lt_ten hc)
    rw [digitChar_digit hc, Nat.mul_comm] at hstep
    rw [Nat.ofDigitChars_cons, ← ih (by omega) hrest, hstep, List.append_assoc]
    rfl

/-- Digits without zeros in front; the last digit stays. -/
def stripZeros : List Char → List Char
  | [] => []
  | [c] => [c]
  | c :: d :: rest => if c = '0' then stripZeros (d :: rest) else c :: d :: rest

/-- The numeral of a number that digits write is what they are without zeros in front. -/
theorem toDigits_ofDigitChars {digits : List Char} (hne : digits ≠ [])
    (h : ∀ c ∈ digits, c.isDigit = true) :
    Nat.toDigits 10 (Nat.ofDigitChars 10 digits 0) = stripZeros digits := by
  induction digits with
  | nil => exact absurd rfl hne
  | cons c rest ih =>
    obtain ⟨hc, hrest⟩ := List.forall_mem_cons.mp h
    rw [Nat.ofDigitChars_cons, Nat.mul_zero, Nat.zero_add]
    have hsingle : Nat.toDigits 10 (c.toNat - '0'.toNat) = [c] := by
      rw [Nat.toDigits_of_lt_base (digit_lt_ten hc), digitChar_digit hc]
    cases rest with
    | nil => exact hsingle
    | cons d rest =>
      rw [stripZeros]
      by_cases hc0 : c = '0'
      · rw [if_pos hc0, hc0, Nat.sub_self]
        exact ih (List.cons_ne_nil d rest) hrest
      · -- the first digit is none of the zeros that are dropped
        have hpos : 0 < c.toNat - '0'.toNat := by
          have hlow := (Char.isDigit_iff_toNat.mp hc).1
          have hother : c.toNat ≠ '0'.toNat := fun heq => hc0 (Char.toNat_inj.mp heq)
          omega
        rw [if_neg hc0, ← toDigits_append hpos hrest, hsingle]
        rfl

theorem FieldStyle.set_zeros (width : Nat) (digits : List Char) :
    FieldStyle.set { width := width, zeros := true } digits = zeroPad width digits := by
  simp [FieldStyle.set, zeroPad]

theorem length_zeroPad (width : Nat) (digits : List Char) :
    (zeroPad width digits).length = max width digits.length := by
  rw [zeroPad, List.length_append, List.length_replicate]
  omega

end DynamicQuorum.Text
