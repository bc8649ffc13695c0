/-
  DynamicQuorum/Proofs/Word256/Numeral.lean
  =========================================
  **Which texts stand for a word, and which one is its own.**

  The texts of a word are its numeral and what zeros in front make of it; every other text is
  refused.  What a text is refused for depends on the digits in front: if their number is no word,
  that is the cause, and else it is the character behind them.  The printer writes the shortest text
  of a word, and fills it up to a longer one when a width is asked for.
-/
import DynamicQuorum.Proofs.Word256.Decimal

namespace DynamicQuorum.Word256

variable {w : Word256} {text : String}

/-! ### Reading -/

/-- **The decimal reader accepts exactly its grammar.**  An empty text is refused.  Of any other one
    the digits in front are read first, and refused if their number is no word, whatever follows
    them; what is left is refused for the character behind them, unless there is none.  Then the
    text is read as its number.  Zeros in front never matter. -/
theorem decimal_reading_is_exact (text : String) :
    (ofDecimal text).map toNat =
      (if text = "" then .error (.wordText text)
      else if 2 ^ 256 ≤ Nat.ofDigitChars 10 (text.toList.takeWhile Char.isDigit) 0 then
        .error .wordOverflow
      else if text.toList.takeWhile Char.isDigit ≠ text.toList then .error (.wordText text)
      else .ok (Nat.ofDigitChars 10 text.toList 0)) ∧
    (text ≠ "" → ∀ zeros w,
      ofDecimal (String.ofList (List.replicate zeros '0' ++ text.toList)) = .ok w ↔
        ofDecimal text = .ok w) := by
  constructor
  · rw [ofDecimal_eq, ← size_eq]
    split
    · rfl
    split
    · rfl
    next hfits =>
      split
      next hall =>
        rw [hall] at hfits
        rw [if_neg (not_not.mpr hall)]
        exact congrArg Except.ok (toNat_ofNat_of_lt (Nat.lt_of_not_le hfits))
      next => rfl
  · intro hne zeros w
    exact ofDecimal_replicate_append hne zeros

/-- The number of words with a letter behind it, which nobody gets to see; the same letter behind a
    number that is a word; and zeros in front of the greatest one. -/
theorem decimal_reading_is_exact_trial :
    (ofDecimal "115792089237316195423570985008687907853269984665640564039457584007913129639936x").map
      toNat = .error .wordOverflow ∧
    (ofDecimal "12x").map toNat = .error (.wordText "12x") ∧
    ofDecimal (String.ofList (List.replicate 100 '0' ++
      "115792089237316195423570985008687907853269984665640564039457584007913129639935".toList)) =
        .ok (.ofNat (2 ^ 256 - 1)) := by
  refine ⟨?_, ?_, ?_⟩
  · rw [(decimal_reading_is_exact _).1]
    decide +kernel
  · rw [(decimal_reading_is_exact _).1]
    decide +kernel
  · rw [(decimal_reading_is_exact _).2 (by decide)]
    decide +kernel

/-! ### Printing -/

theorem ofDecimal_eq_ok_iff :
    ofDecimal text = .ok w ↔ (∀ c ∈ text.toList, c.isDigit = true) ∧
      w.toDecimal.toList = Text.stripZeros text.toList := by
  rw [ofDecimal_eq_ok, toList_toDecimal]
  constructor
  · rintro ⟨hne, hdigits, hvalue⟩
    rw [← hvalue, Text.toDigits_ofDigitChars hne hdigits]
    exact ⟨hdigits, rfl⟩
  · rintro ⟨hdigits, hnumeral⟩
    have hne : text.toList ≠ [] := by
      intro hempty
      rw [hempty] at hnumeral
      exact Nat.toDigits_ne_nil hnumeral
    rw [← Text.toDigits_ofDigitChars hne hdigits] at hnumeral
    -- a numeral has one number
    have hvalue := congrArg (Nat.ofDigitChars 10 · 0) hnumeral
    simp only [Nat.ofDigitChars_ten_toDigits] at hvalue
    exact ⟨hne, hdigits, hvalue.symm⟩

theorem toDecimal_eq_zero (h : w.toDecimal.toList.head? = some '0') : w.toDecimal = "0" := by
  rw [toList_toDecimal] at h
  have hzero : w.toNat = 0 := by
    rcases Nat.eq_zero_or_pos w.toNat with hzero | hpos
    · exact hzero
    · obtain ⟨c, digits, hdigits, hc, -⟩ := Text.toDigits_eq_cons hpos
      rw [hdigits] at h
      exact absurd (Option.some.inj h) hc
  apply String.toList_inj.mp
  rw [toList_toDecimal, hzero]
  rfl

theorem format_zeros (w : Word256) (width : Nat) :
    w.format { width := width, zeros := true } =
      String.ofList (Text.zeroPad width w.toDecimal.toList) := by
  rw [format, Text.FieldStyle.set_zeros, toDecimal, String.toList_ofList]

/-- **The printed numeral is canonical.**  It is the numeral of the number, all of digits, and only
    that of zero starts with a zero.  It is read back, and so is every form that is filled up with
    zeros, which has the width that was asked for unless the numeral is longer.  A text is read as a
    word just when it is made of digits and the numeral of the word is what is left of it without
    zeros in front. -/
theorem decimal_text_is_canonical (w : Word256) :
    (∀ c ∈ w.toDecimal.toList, c.isDigit = true) ∧
    (w.toDecimal.toList.head? = some '0' → w.toDecimal = "0") ∧
    w.toDecimal.toList = Nat.toDigits 10 w.toNat ∧
    ofString w.toDecimal = .ok w ∧
    (∀ width,
      (w.format { width := width, zeros := true }).length = max width w.toDecimal.length ∧
      ofString (w.format { width := width, zeros := true }) = .ok w) ∧
    (∀ text, ofDecimal text = .ok w ↔ (∀ c ∈ text.toList, c.isDigit = true) ∧
      w.toDecimal.toList = Text.stripZeros text.toList) := by
  refine ⟨?_, toDecimal_eq_zero, w.toList_toDecimal, w.ofString_toDecimal, ?_, ?_⟩
  · intro c hc
    rw [toList_toDecimal] at hc
    exact Text.isDigit_of_mem_toDigits hc
  · intro width
    constructor
    · rw [format_zeros, String.length_ofList, Text.length_zeroPad, String.length_toList]
    · rw [format_zeros, Text.zeroPad]
      exact ofString_of_ofDecimal
        ((ofDecimal_replicate_append w.toDecimal_ne_empty _).mpr w.ofDecimal_toDecimal)
  · intro text
    exact ofDecimal_eq_ok_iff

/-- The middle chunk of the second word is zero, and its numeral is filled up to fifty places. -/
theorem decimal_text_is_canonical_trial :
    zero.toDecimal = "0" ∧ ofDecimal "000" = .ok zero ∧
    (ofNat (10 ^ 38 + 7)).toDecimal.toList = '1' :: List.replicate 37 '0' ++ ['7'] ∧
    ((ofNat (10 ^ 38 + 7)).format { width := 50, zeros := true }).length = 50 ∧
    ofString ((ofNat (10 ^ 38 + 7)).format { width := 50, zeros := true }) =
      .ok (ofNat (10 ^ 38 + 7)) := by
  obtain ⟨-, hzero, hnone, -, -, hreads⟩ := decimal_text_is_canonical zero
  obtain ⟨-, -, hnumeral, -, hpadded, -⟩ := decimal_text_is_canonical (ofNat (10 ^ 38 + 7))
  refine ⟨?_, ?_, ?_, ?_, (hpadded 50).2⟩
  · apply hzero
    rw [hnone]
    rfl
  · rw [hreads, hnone]
    exact ⟨List.all_eq_true.mp rfl, rfl⟩
  · rw [hnumeral]
    decide +kernel
  · rw [(hpadded 50).1, ← String.length_toList, hnumeral]
    decide +kernel

end DynamicQuorum.Word256
