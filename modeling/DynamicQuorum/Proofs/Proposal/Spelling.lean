/-
  DynamicQuorum/Proofs/Proposal/Spelling.lean
  ===========================================
  **An account votes once, however it is spelled.**

  A text that starts with its mark is an account if forty digits follow.  Otherwise it is refused
  for a digit that is none or has no partner, or else for their number, so that each cause tells
  where the text went wrong.  Two texts of one account differ in letter case only; a vote under the
  one keeps out a vote under the other.
-/
import DynamicQuorum.Proofs.Address
import DynamicQuorum.Proofs.Proposal.Acceptance

namespace DynamicQuorum

namespace Address

open Text (utf8)
open Text.Hex (IsDigit Marked decode)

variable {text : String} {digits : List Char} {a : Address} {bytes : List UInt8}

/-! ### Refusals -/

theorem ofBytes_of_length_ne (h : bytes.length ≠ 20) :
    ofBytes bytes = .error (.addressLength bytes.length) := by
  rw [ofBytes, dif_neg h]

theorem exists_ofBytes_eq_ok (h : bytes.length = 20) : ∃ a, ofBytes bytes = .ok a :=
  ⟨⟨bytes, h⟩, dif_pos h⟩

theorem ofString_cases (hmarked : Marked text digits) :
    ¬ ((utf8 digits).length % 2 = 0 ∧ ∀ byte ∈ utf8 digits, IsDigit (Char.ofUInt8 byte)) ∧
        (∃ cause, ofString text = .error (.hex cause)) ∨
      ((utf8 digits).length % 2 = 0 ∧ ∀ byte ∈ utf8 digits, IsDigit (Char.ofUInt8 byte)) ∧
        ((utf8 digits).length ≠ 40 ∧
            ofString text = .error (.addressLength ((utf8 digits).length / 2)) ∨
          (utf8 digits).length = 40 ∧ ∃ a, ofString text = .ok a) := by
  rw [← Text.Hex.decode_isOk, ofString_of_marked hmarked]
  -- the digits are counted only once all of them have been read
  by_cases hdecode : ∃ bytes, decode (utf8 digits) = .ok bytes
  · right
    refine ⟨hdecode, ?_⟩
    obtain ⟨bytes, hbytes⟩ := hdecode
    have hlength := Text.Hex.length_of_decode hbytes
    rw [ofDigits_of_ok hbytes, hlength, Nat.mul_div_cancel_left _ (by decide)]
    by_cases htwenty : bytes.length = 20
    · exact .inr ⟨by omega, exists_ofBytes_eq_ok htwenty⟩
    · exact .inl ⟨by omega, ofBytes_of_length_ne htwenty⟩
  · exact .inl ⟨hdecode, ofDigits_of_not_isOk hdecode⟩

theorem ofString_eq_addressFormat :
    ofString text = .error (.addressFormat text) ↔ ∀ digits, ¬ Marked text digits := by
  constructor
  · intro h digits hmarked
    rcases ofString_cases hmarked with ⟨-, cause, hread⟩ | ⟨-, ⟨-, hread⟩ | ⟨-, a, hread⟩⟩
    all_goals
      rw [hread] at h
      cases h
  · exact ofString_of_unmarked

/-! ### One account -/

theorem toHex_inj {b : Address} : a.toHex = b.toHex ↔ a = b := by
  constructor
  · intro h
    have hread := ofString_toHex a
    rw [h, ofString_toHex] at hread
    cases hread
    rfl
  · intro h
    rw [h]

theorem toHex_eq_of_marked (hmarked : Marked text digits) (h : ofString text = .ok a) :
    a.toHex = String.ofList ('0' :: 'x' :: digits.map Char.toLower) := by
  rw [ofString_of_marked hmarked, ofDigits_eq_ok] at h
  rw [← h]
  rfl

theorem eq_iff_toLower_eq {text' : String} {b : Address} (ha : ofString text = .ok a)
    (hb : ofString text' = .ok b) : a = b ↔ text.toLower = text'.toLower := by
  rw [ofString_eq_ok.mp ha, ofString_eq_ok.mp hb, toHex_inj]

theorem hasVoted_after {p q : Proposal} {support support' : VoteSupport} {votes votes' : Word256}
    {b : Address} (h : Proposal.recordVote a support votes p = .ok () q) :
    Proposal.recordVote b support' votes' q = .error .alreadyVoted q ↔
      b = a ∨ b ∈ p.voters.toList := by
  obtain ⟨tally, quorum, -, -, -, rfl⟩ := Proposal.recordVote_effect h
  rw [Proposal.recordVote_eq_alreadyVoted, and_iff_right rfl, ← AddressSet.contains_iff,
    ← AddressSet.contains_iff, AddressSet.contains_insert]

/-- **A text names at most one account, and an account votes once.**  A text without its mark is
    refused as it stands.  Behind the mark, a byte that is no digit or has no partner is at fault
    first, and then the number of the digits; forty of them are an account, whose own text is the
    one that was read, in lowercase.  Its own text is read back, so two texts that are accounts are
    the same one exactly if they agree but for letter case, and then a vote of the second is
    refused once the first has voted. -/
theorem texts_name_accounts_exactly :
    (∀ text, ofString text = .error (.addressFormat text) ↔ ∀ digits, ¬ Marked text digits) ∧
    (∀ text digits, Marked text digits →
      ((∃ cause, ofString text = .error (.hex cause)) ↔
        (utf8 digits).length % 2 = 1 ∨
          ∃ byte ∈ utf8 digits, ¬ IsDigit (Char.ofUInt8 byte)) ∧
      (ofString text = .error (.addressLength ((utf8 digits).length / 2)) ↔
        ((utf8 digits).length % 2 = 0 ∧ ∀ byte ∈ utf8 digits, IsDigit (Char.ofUInt8 byte)) ∧
          (utf8 digits).length ≠ 40) ∧
      ((∃ a, ofString text = .ok a ∧
          a.toHex = String.ofList ('0' :: 'x' :: digits.map Char.toLower)) ↔
        (∀ byte ∈ utf8 digits, IsDigit (Char.ofUInt8 byte)) ∧ (utf8 digits).length = 40)) ∧
    (∀ a, ofString a.toHex = .ok a) ∧
    (∀ text text' a b, ofString text = .ok a → ofString text' = .ok b →
      (a = b ↔ text.toLower = text'.toLower) ∧
      ∀ p q support votes, Proposal.recordVote a support votes p = .ok () q →
        ∀ support' votes', Proposal.recordVote b support' votes' q = .error .alreadyVoted q ↔
          text'.toLower = text.toLower ∨ b ∈ p.voters.toList) := by
  refine ⟨fun text => ofString_eq_addressFormat, ?_, ofString_toHex, ?_⟩
  · intro text digits hmarked
    have hunpaired : ((utf8 digits).length % 2 = 1 ∨
        ∃ byte ∈ utf8 digits, ¬ IsDigit (Char.ofUInt8 byte)) ↔
          ¬ ((utf8 digits).length % 2 = 0 ∧ ∀ byte ∈ utf8 digits, IsDigit (Char.ofUInt8 byte)) := by
      rw [not_and_or, Nat.mod_two_not_eq_zero]
      simp only [not_forall, exists_prop]
    have hforty : (∀ byte ∈ utf8 digits, IsDigit (Char.ofUInt8 byte)) ∧ (utf8 digits).length = 40 ↔
        ((utf8 digits).length % 2 = 0 ∧ ∀ byte ∈ utf8 digits, IsDigit (Char.ofUInt8 byte)) ∧
          (utf8 digits).length = 40 := by
      constructor
      · rintro ⟨hdigits, hlength⟩
        exact ⟨⟨by omega, hdigits⟩, hlength⟩
      · rintro ⟨⟨-, hdigits⟩, hlength⟩
        exact ⟨hdigits, hlength⟩
    rw [hunpaired, hforty]
    -- each of the three outcomes settles all three equivalences
    rcases ofString_cases hmarked with
      ⟨hbad, cause, hread⟩ | ⟨hpaired, ⟨hlength, hread⟩ | ⟨hlength, a, hread⟩⟩
    · rw [hread, eq_false hbad]
      simp
    · rw [hread, eq_true hpaired]
      simp [hlength]
    · rw [hread, eq_true hpaired]
      simp [hlength, toHex_eq_of_marked hmarked hread]
  · intro text text' a b ha hb
    refine ⟨eq_iff_toLower_eq ha hb, ?_⟩
    intro p q support votes hvote support' votes'
    rw [hasVoted_after hvote, eq_iff_toLower_eq hb ha]

/-- A text without its mark, two bytes only, and a letter that is no digit; one account in two
    spellings, of which the second votes in vain. -/
theorem texts_name_accounts_exactly_trial :
    ofString "dead" = .error (.addressFormat "dead") ∧
    ofString "0xdead" = .error (.addressLength 2) ∧
    (∃ cause, ofString "0xnothex" = .error (.hex cause)) ∧
    ∃ a b q, ofString "0xf39Fd6e51aad88F6F4ce6aB8827279cffFb92266" = .ok a ∧
      ofString "0XF39FD6E51AAD88F6F4CE6AB8827279CFFFB92266" = .ok b ∧ a = b ∧
      Proposal.recordVote a .for (.ofUInt64 5) (.create 1 .zero 5 10 20 .zero) = .ok () q ∧
      Proposal.recordVote b .against (.ofUInt64 3) q = .error .alreadyVoted q := by
  obtain ⟨hformat, hmarked, -, hsame⟩ := texts_name_accounts_exactly
  have hlower : "0xf39Fd6e51aad88F6F4ce6aB8827279cffFb92266".toLower =
      "0XF39FD6E51AAD88F6F4CE6AB8827279CFFFB92266".toLower := by
    rw [← String.toList_inj, Text.toList_toLower, Text.toList_toLower]
    decide +kernel
  refine ⟨?_, ?_, ?_, ?_⟩
  · apply (hformat "dead").mpr
    rintro digits (⟨⟨⟩⟩ | ⟨⟨⟩⟩)
  · obtain ⟨-, hlength, -⟩ := hmarked "0xdead" ['d', 'e', 'a', 'd'] (.inl rfl)
    exact hlength.mpr ⟨⟨rfl, List.all_iff_forall_prop.mp rfl⟩, by decide⟩
  · obtain ⟨hhex, -⟩ := hmarked "0xnothex" ['n', 'o', 't', 'h', 'e', 'x'] (.inl rfl)
    exact hhex.mpr (.inr ⟨110, by decide, by decide⟩)
  · obtain ⟨-, -, hread⟩ := hmarked "0xf39Fd6e51aad88F6F4ce6aB8827279cffFb92266"
      ("f39Fd6e51aad88F6F4ce6aB8827279cffFb92266".toList) (.inl rfl)
    obtain ⟨-, -, hread'⟩ := hmarked "0XF39FD6E51AAD88F6F4CE6AB8827279CFFFB92266"
      ("F39FD6E51AAD88F6F4CE6AB8827279CFFFB92266".toList) (.inr rfl)
    obtain ⟨a, ha, -⟩ := hread.mpr ⟨List.all_iff_forall_prop.mp rfl, by decide⟩
    obtain ⟨b, hb, -⟩ := hread'.mpr ⟨List.all_iff_forall_prop.mp rfl, by decide⟩
    obtain ⟨hiff, honce⟩ := hsame _ _ a b ha hb
    have hnew : a ∉ (Proposal.create 1 .zero 5 10 20 .zero).voters.toList := List.not_mem_nil
    have hcounted : ∃ q, Proposal.recordVote a .for (.ofUInt64 5)
        (.create 1 .zero 5 10 20 .zero) = .ok () q := by
      have hraised : (Word256.ofUInt64 5).toNat =
          ((Proposal.create 1 .zero 5 10 20 .zero).tally .for).toNat +
            (Word256.ofUInt64 5).toNat := rfl
      apply (Proposal.recordVote_isOk_of_raised hnew hraised).mpr
      rintro params ⟨⟨⟩, -⟩
    obtain ⟨q, hq⟩ := hcounted
    exact ⟨a, b, q, ha, hb, hiff.mpr hlower, hq, (honce _ q _ _ hq _ _).mpr (.inl hlower.symm)⟩

end Address

end DynamicQuorum
