/-
  DynamicQuorum/Proofs/Word256/Decimal.lean
  =========================================
  **The decimal numeral of a word, and reading it back.**

  The printer writes the numeral of the number, chunk by chunk: each chunk but the first fills
  its nineteen places.  The reader keeps the number of the digits so far; appending a digit
  never makes it smaller, so once it has left the range it stays out, whatever follows.  Zeros in
  front do not count.
-/
import DynamicQuorum.Word256.Numeral
import DynamicQuorum.Proofs.Text.Digits
import DynamicQuorum.Proofs.Word256.Arithmetic
import Mathlib.Data.List.TakeWhile

namespace DynamicQuorum.Word256

/-! ### Printing -/

theorem chunkText_snoc {chunks : List UInt64} (h : chunks ≠ []) (chunk : UInt64) :
    chunkText (chunks ++ [chunk]) =
      chunkText chunks ++ Text.zeroPad chunkDigits (limbDigits chunk) := by
  cases chunks with
  | nil => exact absurd rfl h
  | cons first rest => simp [chunkText]

/-- The chunks of a word make up its numeral, if the fuel holds all of them. -/
theorem chunkText_decimalChunks {fuel : Nat} {w : Word256} (hfuel : 0 < fuel)
    (h : w.toNat < (10 ^ chunkDigits) ^ fuel) :
    decimalChunks fuel w ≠ [] ∧
      chunkText (decimalChunks fuel w).reverse = Nat.toDigits 10 w.toNat := by
  induction fuel generalizing w with
  | zero => cases hfuel
  | succ fuel ih =>
    obtain ⟨hsum, hlow⟩ := divModLimb_value w
      (show 0 < (10000000000000000000 : UInt64).toNat by decide)
    rw [show (10000000000000000000 : UInt64).toNat = 10 ^ chunkDigits from rfl] at hsum hlow
    rw [decimalChunks]
    refine ⟨List.cons_ne_nil _ _, ?_⟩
    -- the chunk is the whole numeral, or the last places of it
    split
    next hzero =>
      rw [hzero, toNat_zero, Nat.zero_mul, Nat.zero_add] at hsum
      rw [← hsum]
      exact List.append_nil _
    next hzero =>
      have hpos : 0 < (divModLimb w 10000000000000000000).1.toNat :=
        Nat.pos_of_ne_zero (mt toNat_eq_zero.mp hzero)
      have hhigh : (divModLimb w 10000000000000000000).1.toNat < (10 ^ chunkDigits) ^ fuel := by
        rw [Nat.pow_succ, ← hsum] at h
        exact Nat.lt_of_mul_lt_mul_right (Nat.lt_of_le_of_lt (Nat.le_add_right _ _) h)
      -- what is left is not zero, so there has to be room for it
      have hfuel' : 0 < fuel := by
        rcases Nat.eq_zero_or_pos fuel with rfl | hfuel'
        · exact absurd hhigh (Nat.not_lt.mpr hpos)
        · exact hfuel'
      obtain ⟨hne, htext⟩ := ih hfuel' hhigh
      rw [List.reverse_cons, chunkText_snoc (List.reverse_ne_nil_iff.mpr hne), htext, ← hsum]
      exact (Text.toDigits_split hpos (by decide) hlow).symm

theorem decimalDigits_eq (w : Word256) : w.decimalDigits = Nat.toDigits 10 w.toNat := by
  have hfits : w.toNat < (10 ^ chunkDigits) ^ 5 := Nat.lt_trans w.toNat_lt (by decide +kernel)
  exact (chunkText_decimalChunks (by decide) hfits).2

theorem toList_toDecimal (w : Word256) : w.toDecimal.toList = Nat.toDigits 10 w.toNat := by
  rw [toDecimal, String.toList_ofList, decimalDigits_eq]

/-! ### Reading -/

theorem appendDigit_of_isDigit {text : String} {acc : Word256} {c : Char} (h : c.isDigit = true) :
    appendDigit text acc c =
      if 10 * acc.toNat + (c.toNat - '0'.toNat) < size then
        .ok (ofNat (10 * acc.toNat + (c.toNat - '0'.toNat)))
      else .error .wordOverflow := by
  have hdigit : c.toNat - '0'.toNat < size := Nat.lt_trans (Text.digit_lt_ten h) (by decide)
  have hten : (ofUInt64 10).toNat = 10 := rfl
  rw [appendDigit, if_pos h, mul?_eq, hten, Nat.mul_comm acc.toNat]
  by_cases hproduct : 10 * acc.toNat < size
  · rw [if_pos hproduct, Option.bind_some, add?_eq, toNat_ofNat_of_lt hproduct,
      toNat_ofNat_of_lt hdigit]
    by_cases hsum : 10 * acc.toNat + (c.toNat - '0'.toNat) < size
    · rw [if_pos hsum, if_pos hsum]
    · rw [if_neg hsum, if_neg hsum]
  · rw [if_neg hproduct, if_neg (by omega)]
    rfl

/-- Only the digits in front of the first other character are ever read.  If their number is no
    word, nobody sees that character. -/
theorem foldlM_appendDigit (text : String) (l : List Char) (acc : Word256) :
    l.foldlM (appendDigit text) acc =
      if size ≤ Nat.ofDigitChars 10 (l.takeWhile Char.isDigit) acc.toNat then
        .error .wordOverflow
      else if l.takeWhile Char.isDigit = l then .ok (ofNat (Nat.ofDigitChars 10 l acc.toNat))
      else .error (.wordText text) := by
  induction l generalizing acc with
  | nil =>
    rw [List.takeWhile_nil, Nat.ofDigitChars_nil, if_neg (Nat.not_le.mpr acc.toNat_lt), if_pos rfl,
      ofNat_toNat]
    rfl
  | cons c rest ih =>
    rw [List.foldlM_cons]
    by_cases hc : c.isDigit = true
    · rw [appendDigit_of_isDigit hc, List.takeWhile_cons_of_pos hc, Nat.ofDigitChars_cons,
        Nat.ofDigitChars_cons]
      by_cases hnext : 10 * acc.toNat + (c.toNat - '0'.toNat) < size
      · rw [if_pos hnext]
        refine (ih _).trans ?_
        simp only [toNat_ofNat_of_lt hnext, List.cons_inj_right]
      · -- out of range once and for all
        have hout := Text.le_ofDigitChars (rest.takeWhile Char.isDigit)
          (10 * acc.toNat + (c.toNat - '0'.toNat))
        rw [if_neg hnext, if_pos (Nat.le_trans (Nat.not_lt.mp hnext) hout)]
        rfl
    · rw [List.takeWhile_cons_of_neg hc, Nat.ofDigitChars_nil,
        if_neg (Nat.not_le.mpr acc.toNat_lt), if_neg (List.cons_ne_nil c rest).symm, appendDigit,
        if_neg hc]
      rfl

theorem ofDecimal_eq (text : String) :
    ofDecimal text =
      if text = "" then .error (.wordText text)
      else if size ≤ Nat.ofDigitChars 10 (text.toList.takeWhile Char.isDigit) 0 then
        .error .wordOverflow
      else if text.toList.takeWhile Char.isDigit = text.toList then
        .ok (ofNat (Nat.ofDigitChars 10 text.toList 0))
      else .error (.wordText text) := by
  rw [ofDecimal, foldlM_appendDigit, toNat_zero]
  simp only [List.isEmpty_iff, String.toList_eq_nil_iff]

/-- A text is read as the number that its digits write. -/
theorem ofDecimal_eq_ok {text : String} {w : Word256} :
    ofDecimal text = .ok w ↔ text.toList ≠ [] ∧ (∀ c ∈ text.toList, c.isDigit = true) ∧
      Nat.ofDigitChars 10 text.toList 0 = w.toNat := by
  rw [ofDecimal_eq, ← List.takeWhile_eq_self_iff, ne_eq, String.toList_eq_nil_iff]
  by_cases hempty : text = ""
  · simp [hempty]
  by_cases hall : text.toList.takeWhile Char.isDigit = text.toList
  · rw [if_neg hempty, hall, if_pos rfl]
    constructor
    · intro h
      split at h
      next => cases h
      next hfits =>
        cases h
        exact ⟨hempty, rfl, (toNat_ofNat_of_lt (Nat.lt_of_not_le hfits)).symm⟩
    · rintro ⟨-, -, hvalue⟩
      rw [hvalue, if_neg (Nat.not_le.mpr w.toNat_lt), ofNat_toNat]
  · rw [if_neg hempty, if_neg hall]
    constructor
    · intro h
      split at h <;> cases h
    · rintro ⟨-, hdigits, -⟩
      exact absurd hdigits hall

/-- Zeros in front of a numeral do not count. -/
theorem ofDecimal_replicate_append {text : String} {w : Word256} (hne : text ≠ "") (zeros : Nat) :
    ofDecimal (String.ofList (List.replicate zeros '0' ++ text.toList)) = .ok w ↔
      ofDecimal text = .ok w := by
  have hlist : text.toList ≠ [] := mt String.toList_eq_nil_iff.mp hne
  have hzero : ∀ c ∈ List.replicate zeros '0', c.isDigit = true := by
    intro c hc
    rw [List.eq_of_mem_replicate hc]
    rfl
  rw [ofDecimal_eq_ok, ofDecimal_eq_ok, String.toList_ofList, Nat.ofDigitChars_append,
    Nat.ofDigitChars_replicate_zero, Nat.mul_zero, List.forall_mem_append, and_iff_right hzero,
    and_iff_right hlist, and_iff_right (List.append_ne_nil_of_right_ne_nil _ hlist)]

theorem toDecimal_ne_empty (w : Word256) : w.toDecimal ≠ "" := by
  intro hempty
  have hlist := w.toList_toDecimal
  rw [hempty] at hlist
  exact Nat.toDigits_ne_nil hlist.symm

theorem ofDecimal_toDecimal (w : Word256) : ofDecimal w.toDecimal = .ok w := by
  rw [ofDecimal_eq_ok, toList_toDecimal]
  exact ⟨Nat.toDigits_ne_nil, fun _ hc => Text.isDigit_of_mem_toDigits hc,
    Nat.ofDigitChars_ten_toDigits⟩

/-- Digits have no `x` among them, so they are not taken for a hexadecimal numeral. -/
theorem ofString_of_isDigit {text : String} (h : ∀ c ∈ text.toList, c.isDigit = true) :
    ofString text = ofDecimal text := by
  rw [ofString]
  split
  next digits htext => exact absurd (h 'x' (by simp [htext])) (by decide)
  next digits htext => exact absurd (h 'X' (by simp [htext])) (by decide)
  next => rfl

theorem ofString_of_ofDecimal {text : String} {w : Word256} (h : ofDecimal text = .ok w) :
    ofString text = .ok w := by
  obtain ⟨-, hdigits, -⟩ := ofDecimal_eq_ok.mp h
  rw [ofString_of_isDigit hdigits, h]

theorem ofString_toDecimal (w : Word256) : ofString w.toDecimal = .ok w :=
  ofString_of_ofDecimal w.ofDecimal_toDecimal

end DynamicQuorum.Word256
