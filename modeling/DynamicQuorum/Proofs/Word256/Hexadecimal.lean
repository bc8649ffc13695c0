/-
  DynamicQuorum/Proofs/Word256/Hexadecimal.lean
  =============================================
  **The hexadecimal numeral of a word, and which texts are read as one.**

  A numeral has up to sixty-four digits behind its mark.  An odd number of them gets a zero in
  front, which changes neither the number nor whether all of them are digits, and makes two digits
  for each byte.  A character that is no digit is found before the digits are counted.
-/
import DynamicQuorum.Proofs.Text.Hex
import DynamicQuorum.Proofs.Word256.Bytes

namespace DynamicQuorum.Word256

open Text (bigEndian utf8)
open Text.Hex (IsDigit Marked number decode encode alphabet)

variable {text : String} {digits : List Char} {w : Word256}

/-! ### The mark -/

theorem ofString_of_marked (h : Marked text digits) :
    ofString text = ofHexDigits (utf8 digits) := by
  rcases h with h | h
  · rw [ofString, h]
    rfl
  · rw [ofString, h]
    rfl

theorem ofString_of_unmarked (h : ∀ digits, ¬ Marked text digits) :
    ofString text = ofDecimal text := by
  rw [ofString]
  split
  next digits htext => exact absurd (.inl htext) (h digits)
  next digits htext => exact absurd (.inr htext) (h digits)
  next => rfl

/-! ### An even number of digits -/

/-- The digits with a zero in front, if there is an odd number of bytes. -/
def evened (digits : List Char) : List Char :=
  if (utf8 digits).length % 2 = 1 then '0' :: digits else digits

theorem utf8_evened (digits : List Char) :
    utf8 (evened digits) =
      if (utf8 digits).length % 2 = 1 then 48 :: utf8 digits else utf8 digits := by
  unfold evened
  split
  · rfl
  · rfl

theorem even_length_evened (digits : List Char) : (utf8 (evened digits)).length % 2 = 0 := by
  rw [utf8_evened]
  split
  · rw [List.length_cons]
    omega
  · omega

theorem isDigit_evened : (∀ c ∈ evened digits, IsDigit c) ↔ ∀ c ∈ digits, IsDigit c := by
  unfold evened
  split
  · rw [List.forall_mem_cons, and_iff_right (by decide)]
  · rfl

theorem number_evened (digits : List Char) : number (evened digits) = number digits := by
  unfold evened
  split
  · rw [number, List.map_cons, Nat.ofDigits_reverse_cons]
    rfl
  · rfl

theorem length_evened (h : ∀ c ∈ digits, IsDigit c) :
    (evened digits).length = digits.length + digits.length % 2 := by
  rw [evened, Text.Hex.length_utf8 h]
  split
  · rw [List.length_cons]
    omega
  · omega

/-! ### Reading -/

theorem ofHexDigits_of_error {cause : Text.Hex.Error}
    (h : decode (utf8 (evened digits)) = .error cause) :
    ofHexDigits (utf8 digits) = .error (.hex cause) := by
  rw [utf8_evened] at h
  simp only [ofHexDigits, h]

theorem ofHexDigits_of_none {bytes : List UInt8}
    (h : decode (utf8 (evened digits)) = .ok bytes) (hnone : ofBytes? bytes = none) :
    ofHexDigits (utf8 digits) = .error .wordOverflow := by
  rw [utf8_evened] at h
  simp only [ofHexDigits, h, hnone]

theorem ofHexDigits_of_some {bytes : List UInt8}
    (h : decode (utf8 (evened digits)) = .ok bytes) (hsome : ofBytes? bytes = some w) :
    ofHexDigits (utf8 digits) = .ok w := by
  rw [utf8_evened] at h
  simp only [ofHexDigits, h, hsome]

/-- Digits are read as bytes with the number that they write. -/
theorem decode_evened (h : ∀ c ∈ digits, IsDigit c) :
    ∃ bytes, decode (utf8 (evened digits)) = .ok bytes ∧
      2 * bytes.length = digits.length + digits.length % 2 ∧ bigEndian bytes = number digits := by
  have hdigits := isDigit_evened.mpr h
  obtain ⟨bytes, hbytes⟩ := Text.Hex.decode_isOk.mpr
    ⟨even_length_evened digits, Text.Hex.isDigit_utf8.mpr hdigits⟩
  have hencode := Text.Hex.decode_utf8_eq_ok.mp hbytes
  refine ⟨bytes, hbytes, ?_, ?_⟩
  · rw [← Text.Hex.length_encode, hencode, List.length_map, length_evened h]
  · rw [← Text.Hex.number_encode, hencode, Text.Hex.number_toLower hdigits, number_evened]

theorem ofHexDigits_of_isDigit (h : ∀ c ∈ digits, IsDigit c) (hlength : digits.length ≤ 64) :
    ∃ w, ofHexDigits (utf8 digits) = .ok w ∧ w.toNat = number digits := by
  obtain ⟨bytes, hbytes, hcount, hvalue⟩ := decode_evened h
  cases hword : ofBytes? bytes with
  | none =>
    have hmany := ofBytes?_eq_none.mp hword
    omega
  | some w =>
    obtain ⟨-, hw⟩ := ofBytes?_eq_some.mp hword
    exact ⟨w, ofHexDigits_of_some hbytes hword, hw.trans hvalue⟩

theorem ofHexDigits_of_lt_length (h : ∀ c ∈ digits, IsDigit c) (hlength : 64 < digits.length) :
    ofHexDigits (utf8 digits) = .error .wordOverflow := by
  obtain ⟨bytes, hbytes, hcount, -⟩ := decode_evened h
  exact ofHexDigits_of_none hbytes (ofBytes?_eq_none.mpr (by omega))

theorem ofHexDigits_of_not_isDigit (h : ¬ ∀ c ∈ digits, IsDigit c) :
    ∃ cause, ofHexDigits (utf8 digits) = .error (.hex cause) := by
  cases hdecode : decode (utf8 (evened digits)) with
  | error cause => exact ⟨cause, ofHexDigits_of_error hdecode⟩
  | ok bytes =>
    obtain ⟨-, hdigits⟩ := Text.Hex.decode_isOk.mp ⟨bytes, hdecode⟩
    exact absurd (isDigit_evened.mp (Text.Hex.isDigit_utf8.mp hdigits)) h

/-! ### Printing -/

theorem toList_toHex (w : Word256) : w.toHex.toList = '0' :: 'x' :: encode w.toBytes :=
  String.toList_ofList

theorem ofString_toHex (w : Word256) : ofString w.toHex = .ok w := by
  have hdigits : ∀ c ∈ encode w.toBytes, IsDigit c := by
    intro c hc
    have hmem := Text.Hex.mem_alphabet_of_mem_encode hc
    rwa [IsDigit, Text.Hex.toLower_of_mem_alphabet hmem]
  obtain ⟨w', hread, hvalue⟩ := ofHexDigits_of_isDigit hdigits (by
    rw [Text.Hex.length_encode, length_toBytes])
  rw [Text.Hex.number_encode, bigEndian_toBytes] at hvalue
  rw [ofString_of_marked (.inl w.toList_toHex), hread, toNat_injective hvalue]

/-- **Hexadecimal and byte forms are exact.**  Behind the mark a text is refused for a byte that is
    no digit, wherever it stands, and else for more than sixty-four digits, zeros in front counted;
    what is left is read as the number of its digits.  Without the mark it is read as a decimal
    numeral.  A word is printed with sixty-four lowercase digits of its number, and is read back.
    Its thirty-two bytes are the digits of the number to the base 256, and any thirty-two bytes are
    those of a word. -/
theorem hexadecimal_and_bytes_are_exact :
    (∀ text digits, Marked text digits →
      ((∃ cause, ofString text = .error (.hex cause)) ↔
        ∃ byte ∈ utf8 digits, ¬ IsDigit (Char.ofUInt8 byte)) ∧
      (ofString text = .error .wordOverflow ↔
        (∀ byte ∈ utf8 digits, IsDigit (Char.ofUInt8 byte)) ∧ 64 < digits.length) ∧
      ((∃ w, ofString text = .ok w ∧ w.toNat = number digits) ↔
        (∀ byte ∈ utf8 digits, IsDigit (Char.ofUInt8 byte)) ∧ digits.length ≤ 64)) ∧
    (∀ text, (∀ digits, ¬ Marked text digits) → ofString text = ofDecimal text) ∧
    (∀ w : Word256,
      (∃ digits, w.toHex.toList = '0' :: 'x' :: digits ∧ digits.length = 64 ∧
        (∀ c ∈ digits, c ∈ alphabet) ∧ number digits = w.toNat) ∧
      ofString w.toHex = .ok w) ∧
    (∀ w : Word256, w.toBytes.length = 32 ∧ ofBytes? w.toBytes = some w ∧
      (w.toBytes.map UInt8.toNat).reverse = Nat.digitsAppend 256 32 w.toNat) ∧
    (∀ bytes, bytes.length = 32 → ∃ w, ofBytes? bytes = some w ∧ w.toBytes = bytes) := by
  refine ⟨?_, fun text => ofString_of_unmarked, ?_, ?_, ?_⟩
  · intro text digits hmarked
    have hbad : (∃ byte ∈ utf8 digits, ¬ IsDigit (Char.ofUInt8 byte)) ↔
        ¬ ∀ c ∈ digits, IsDigit c := by
      rw [← Text.Hex.isDigit_utf8]
      simp only [not_forall, exists_prop]
    rw [ofString_of_marked hmarked, hbad, Text.Hex.isDigit_utf8]
    by_cases hdigits : ∀ c ∈ digits, IsDigit c
    · -- digits only: the length decides
      rcases Nat.lt_or_ge 64 digits.length with hlong | hshort
      · rw [ofHexDigits_of_lt_length hdigits hlong, eq_true hdigits]
        simp [hlong]
      · obtain ⟨w, hread, hvalue⟩ := ofHexDigits_of_isDigit hdigits hshort
        rw [hread, eq_true hdigits]
        simp [hshort, hvalue]
    · obtain ⟨cause, hrefused⟩ := ofHexDigits_of_not_isDigit hdigits
      rw [hrefused, eq_false hdigits]
      simp
  · intro w
    refine ⟨⟨encode w.toBytes, w.toList_toHex, ?_, ?_, ?_⟩, w.ofString_toHex⟩
    · rw [Text.Hex.length_encode, length_toBytes]
    · intro c hc
      exact Text.Hex.mem_alphabet_of_mem_encode hc
    · rw [Text.Hex.number_encode, bigEndian_toBytes]
  · intro w
    exact ⟨w.length_toBytes, w.ofBytes?_toBytes, w.digitsAppend_toNat.symm⟩
  · intro bytes hlength
    cases hword : ofBytes? bytes with
    | none =>
      have hmany := ofBytes?_eq_none.mp hword
      omega
    | some w => exact ⟨w, rfl, toBytes_ofBytes? hword hlength⟩

/-- An odd number of digits in both letter cases, no digit at all, sixty-five zeros, and a letter
    that is no digit behind them. -/
theorem hexadecimal_and_bytes_are_exact_trial :
    ofString "0XaBc" = .ok (.ofUInt64 0xabc) ∧ ofString "0x" = .ok zero ∧
    ofString (String.ofList ('0' :: 'x' :: List.replicate 65 '0')) = .error .wordOverflow ∧
    (∃ cause, ofString (String.ofList ('0' :: 'x' :: List.replicate 65 '0' ++ ['é'])) =
      .error (.hex cause)) ∧
    ofString "12" = ofDecimal "12" ∧
    ∃ w, ofBytes? (List.range 32 |>.map UInt8.ofNat) = some w ∧
      w.toBytes = (List.range 32).map UInt8.ofNat := by
  obtain ⟨hmarked, hunmarked, -, -, hbytes⟩ := hexadecimal_and_bytes_are_exact
  refine ⟨?_, ?_, ?_, ?_, ?_, hbytes _ rfl⟩
  · obtain ⟨-, -, hok⟩ := hmarked "0XaBc" ['a', 'B', 'c'] (.inr rfl)
    obtain ⟨w, hread, hvalue⟩ := hok.mpr ⟨List.all_iff_forall_prop.mp rfl, by decide⟩
    rw [hread, show w = .ofUInt64 0xabc from toNat_injective (hvalue.trans (by decide))]
  · obtain ⟨-, -, hok⟩ := hmarked "0x" [] (.inl rfl)
    obtain ⟨w, hread, hvalue⟩ := hok.mpr ⟨List.all_iff_forall_prop.mp rfl, by decide⟩
    rw [hread, show w = zero from toNat_injective hvalue]
  · obtain ⟨-, hlong, -⟩ := hmarked _ (List.replicate 65 '0') (.inl String.toList_ofList)
    exact hlong.mpr ⟨List.all_iff_forall_prop.mp rfl, by decide⟩
  · obtain ⟨hbad, -⟩ := hmarked _ (List.replicate 65 '0' ++ ['é']) (.inl String.toList_ofList)
    exact hbad.mpr ⟨195, by decide, by decide⟩
  · apply hunmarked
    rintro digits (⟨⟨⟩⟩ | ⟨⟨⟩⟩)

end DynamicQuorum.Word256
