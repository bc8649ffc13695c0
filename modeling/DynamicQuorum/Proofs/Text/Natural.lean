/-
  DynamicQuorum/Proofs/Text/Natural.lean
  ======================================
  **A numeral is read as the number that it writes.**

  The reader keeps the number of the digits so far, which no further digit makes smaller.  So the
  bound holds at every digit if it holds at the last one, and a text is accepted exactly if
  it is made of digits behind at most one plus sign, and its number lies below the bound.
-/
import DynamicQuorum.Text.Natural
import DynamicQuorum.Proofs.Text.Digits

namespace DynamicQuorum.Text

variable {bound n acc : Nat} {digits text : List Char}

theorem appendDigit_eq_ok {c : Char} :
    appendDigit bound acc c = .ok n ↔
      c.isDigit = true ∧ 10 * acc + (c.toNat - '0'.toNat) = n ∧ n < bound := by
  rw [appendDigit, digitValue, Nat.mul_comm acc]
  by_cases hc : c.isDigit = true
  · rw [if_pos hc, and_iff_right hc]
    by_cases hfits : 10 * acc + (c.toNat - '0'.toNat) < bound
    · rw [if_pos hfits, Except.ok.injEq]
      constructor
      · rintro rfl
        exact ⟨rfl, hfits⟩
      · intro h
        exact h.1
    · rw [if_neg hfits]
      constructor
      · rintro ⟨⟩
      · rintro ⟨rfl, hn⟩
        exact absurd hn hfits
  · simp [hc]

/-- Digits are read to the end, if the whole number stays below the bound. -/
theorem foldlM_appendDigit_eq_ok (hacc : acc < bound) :
    digits.foldlM (appendDigit bound) acc = .ok n ↔
      (∀ c ∈ digits, c.isDigit = true) ∧ Nat.ofDigitChars 10 digits acc = n ∧ n < bound := by
  induction digits generalizing acc with
  | nil =>
    rw [List.foldlM_nil, Nat.ofDigitChars_nil]
    constructor
    · rintro ⟨⟩
      exact ⟨nofun, rfl, hacc⟩
    · rintro ⟨-, rfl, -⟩
      rfl
  | cons c rest ih =>
    rw [List.foldlM_cons, Nat.ofDigitChars_cons, List.forall_mem_cons]
    cases hstep : appendDigit bound acc c with
    | ok next =>
      obtain ⟨hc, rfl, hnext⟩ := appendDigit_eq_ok.mp hstep
      exact (ih hnext).trans (by rw [and_iff_right hc])
    | error cause =>
      constructor
      · rintro ⟨⟩
      · rintro ⟨⟨hc, -⟩, rfl, hn⟩
        -- the digit would have been read, since the whole number lies below the bound
        have hfits := Nat.lt_of_le_of_lt (le_ofDigitChars rest _) hn
        rw [appendDigit_eq_ok.mpr ⟨hc, rfl, hfits⟩] at hstep
        cases hstep

/-- A numeral is one or more digits, behind a plus sign or none. -/
def IsNumeral (text digits : List Char) : Prop :=
  (text = digits ∨ text = '+' :: digits) ∧ digits ≠ [] ∧ ∀ c ∈ digits, c.isDigit = true

/-- A number is read exactly from a numeral below the bound. -/
theorem readNatural_eq_ok (hbound : 0 < bound) :
    readNatural bound text = .ok n ↔
      ∃ digits, IsNumeral text digits ∧ Nat.ofDigitChars 10 digits 0 = n ∧ n < bound := by
  rw [readNatural.eq_def]
  split
  next =>
    constructor
    · rintro ⟨⟩
    · rintro ⟨digits, ⟨htext, hne, -⟩, -⟩
      rcases htext with htext | htext
      · exact absurd htext.symm hne
      · cases htext
  next =>
    constructor
    · rintro ⟨⟩
    · rintro ⟨digits, ⟨htext, hne, hdigits⟩, -⟩
      rcases htext with rfl | htext
      · exact absurd (hdigits '+' List.mem_cons_self) (by decide)
      · exact absurd (List.cons.inj htext).2.symm hne
  next digits hne =>
    rw [foldlM_appendDigit_eq_ok hbound]
    constructor
    · rintro ⟨hdigits, hvalue⟩
      exact ⟨digits, ⟨.inr rfl, hne, hdigits⟩, hvalue⟩
    · rintro ⟨digits', ⟨htext, -, hdigits⟩, hvalue⟩
      rcases htext with rfl | htext
      · exact absurd (hdigits '+' List.mem_cons_self) (by decide)
      · obtain ⟨-, rfl⟩ := List.cons.inj htext
        exact ⟨hdigits, hvalue⟩
  next hempty hsign hplus =>
    rw [foldlM_appendDigit_eq_ok hbound]
    constructor
    · rintro ⟨hdigits, hvalue⟩
      exact ⟨text, ⟨.inl rfl, hempty, hdigits⟩, hvalue⟩
    · rintro ⟨digits, ⟨htext, -, hdigits⟩, hvalue⟩
      rcases htext with rfl | htext
      · exact ⟨hdigits, hvalue⟩
      · exact absurd htext (hplus digits)

theorem readNatural_toDigits (h : n < bound) : readNatural bound (Nat.toDigits 10 n) = .ok n := by
  have hnumeral : IsNumeral (Nat.toDigits 10 n) (Nat.toDigits 10 n) :=
    ⟨.inl rfl, Nat.toDigits_ne_nil, fun _ => isDigit_of_mem_toDigits⟩
  exact (readNatural_eq_ok (Nat.zero_lt_of_lt h)).mpr
    ⟨_, hnumeral, Nat.ofDigitChars_ten_toDigits, h⟩

theorem readUInt16_eq_ok {text : String} {v : UInt16} :
    readUInt16 text = .ok v ↔ readNatural UInt16.size text.toList = .ok v.toNat := by
  rw [readUInt16]
  cases hread : readNatural UInt16.size text.toList with
  | error cause =>
    constructor
    · rintro ⟨⟩
    · rintro ⟨⟩
  | ok n =>
    have hn : n < UInt16.size := by
      obtain ⟨-, -, -, hn⟩ := (readNatural_eq_ok (by decide)).mp hread
      exact hn
    constructor
    · rintro ⟨⟩
      exact congrArg Except.ok (UInt16.toNat_ofNat_of_lt' hn).symm
    · rintro ⟨⟩
      exact congrArg Except.ok UInt16.ofNat_toNat

end DynamicQuorum.Text
