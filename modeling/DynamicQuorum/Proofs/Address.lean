/-
  DynamicQuorum/Proofs/Address.lean
  =================================
  **An account is what its text says.**

  The texts of an account are its own one and those that differ from it in letter case only.  Of
  any other text the mark in front is missing, or else a byte behind it is no digit or lacks
  another to make up a pair, or else there are not forty digits.
-/
import DynamicQuorum.Address
import DynamicQuorum.Proofs.Text.Hex

namespace DynamicQuorum.Address

open Text (utf8)
open Text.Hex (IsDigit Marked decode encode)

variable {text : String} {digits : List Char} {a : Address}

theorem ofBytes_bytes (a : Address) : ofBytes a.bytes = .ok a := by
  rw [ofBytes, dif_pos a.length_bytes]

theorem ofBytes_eq_ok {bytes : List UInt8} : ofBytes bytes = .ok a ↔ a.bytes = bytes := by
  constructor
  · intro h
    rw [ofBytes] at h
    split at h
    · cases h
      rfl
    · cases h
  · rintro rfl
    exact a.ofBytes_bytes

theorem toList_toHex (a : Address) : a.toHex.toList = '0' :: 'x' :: encode a.bytes :=
  String.toList_ofList

/-! ### The mark -/

theorem ofString_of_marked (h : Marked text digits) :
    ofString text = ofString.ofDigits digits := by
  rcases h with h | h
  · rw [ofString, h]
    rfl
  · rw [ofString, h]
    rfl

theorem ofString_of_unmarked (h : ∀ digits, ¬ Marked text digits) :
    ofString text = .error (.addressFormat text) := by
  rw [ofString]
  split
  next digits htext => exact absurd (.inl htext) (h digits)
  next digits htext => exact absurd (.inr htext) (h digits)
  next => rfl

/-! ### The digits -/

theorem ofDigits_of_not_isOk (h : ¬ ∃ bytes, decode (utf8 digits) = .ok bytes) :
    ∃ cause, ofString.ofDigits digits = .error (.hex cause) := by
  rw [ofString.ofDigits]
  cases hdecode : decode (utf8 digits) with
  | error cause => exact ⟨cause, rfl⟩
  | ok bytes => exact absurd ⟨bytes, hdecode⟩ h

theorem ofDigits_of_ok {bytes : List UInt8} (h : decode (utf8 digits) = .ok bytes) :
    ofString.ofDigits digits = ofBytes bytes := by
  rw [ofString.ofDigits, h]

theorem ofDigits_eq_ok :
    ofString.ofDigits digits = .ok a ↔ encode a.bytes = digits.map Char.toLower := by
  rw [← Text.Hex.decode_utf8_eq_ok]
  cases hdecode : decode (utf8 digits) with
  | error cause =>
    obtain ⟨cause', hrefused⟩ := @ofDigits_of_not_isOk digits (by simp [hdecode])
    simp [hrefused]
  | ok bytes => rw [ofDigits_of_ok hdecode, ofBytes_eq_ok, Except.ok.injEq, eq_comm]

/-! ### The text -/

/-- A text is read as the account whose own text it is but for the case of its letters. -/
theorem ofString_eq_ok : ofString text = .ok a ↔ text.toLower = a.toHex := by
  rw [← String.toList_inj, toList_toHex, Text.Hex.toList_toLower_eq]
  constructor
  · intro h
    by_cases hmarked : ∃ digits, Marked text digits
    · obtain ⟨digits, hmarked⟩ := hmarked
      rw [ofString_of_marked hmarked, ofDigits_eq_ok] at h
      exact ⟨digits, hmarked, h.symm⟩
    · rw [ofString_of_unmarked (not_exists.mp hmarked)] at h
      cases h
  · rintro ⟨digits, hmarked, hlower⟩
    rw [ofString_of_marked hmarked, ofDigits_eq_ok, hlower]

theorem ofString_toHex (a : Address) : ofString a.toHex = .ok a := by
  rw [ofString_of_marked (.inl a.toList_toHex), ofDigits_of_ok (Text.Hex.decode_encode a.bytes)]
  exact a.ofBytes_bytes

end DynamicQuorum.Address
