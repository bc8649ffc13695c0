/-
  DynamicQuorum/Proofs/Text/Hex.lean
  ==================================
  **Hexadecimal digits, and the texts that are read as bytes.**

  The reader works on the UTF-8 bytes of a text.  A byte is a digit in either letter case, and a
  character beyond ASCII has bytes that are none, so the digits of a text may be counted as bytes
  or as characters.  A text is read as some bytes exactly when it is their encoding but for the
  case of its letters (`decode_utf8_eq_ok`).  The bytes then write the number that the digits
  write.
-/
import Mathlib.Data.Bool.AllAny
import DynamicQuorum.Text.Hex
import DynamicQuorum.Proofs.Text.BigEndian

namespace DynamicQuorum.Text

theorem utf8_cons (c : Char) (text : List Char) :
    utf8 (c :: text) = String.utf8EncodeChar c ++ utf8 text :=
  List.flatMap_cons

/-! ### Bytes of characters -/

theorem utf8EncodeChar_of_ascii {c : Char} (h : c.toNat < 128) :
    ∃ byte, String.utf8EncodeChar c = [byte] ∧ Char.ofUInt8 byte = c := by
  refine ⟨c.val.toUInt8, ?_, ?_⟩
  · apply String.utf8EncodeChar_eq_singleton
    rw [Char.utf8Size_eq_one_iff]
    exact UInt32.le_iff_toNat_le.mpr (Nat.le_of_lt_succ h)
  · apply Char.toNat_inj.mp
    change (c.val.toUInt8).toUInt32.toNat = c.val.toNat
    rw [UInt8.toNat_toUInt32, UInt32.toNat_toUInt8]
    have hval : c.val.toNat < 128 := h
    omega

theorem map_utf8_of_ascii {text : List Char} (h : ∀ c ∈ text, c.toNat < 128) :
    (utf8 text).map Char.ofUInt8 = text := by
  induction text with
  | nil => rfl
  | cons c rest ih =>
    obtain ⟨hc, hrest⟩ := List.forall_mem_cons.mp h
    obtain ⟨byte, hbyte, hchar⟩ := utf8EncodeChar_of_ascii hc
    rw [utf8_cons, hbyte, List.map_append, ih hrest, List.map_singleton, hchar]
    rfl

/-- The last byte of a character beyond ASCII is none of an ASCII character. -/
theorem exists_large_byte {c : Char} (h : 128 ≤ c.toNat) :
    ∃ byte ∈ String.utf8EncodeChar c, 128 ≤ byte.toNat := by
  have hval : 128 ≤ c.val.toNat := h
  refine ⟨UInt8.ofNat (c.val.toNat % 64 + 128), ?_, ?_⟩
  · simp only [String.utf8EncodeChar, if_neg (show ¬ c.val.toNat ≤ 127 by omega)]
    split
    · simp
    split <;> simp
  · rw [UInt8.toNat_ofNat']
    omega

/-! ### Letter case -/

/-- A character is its own lower case, or moves by the distance of the two alphabets. -/
theorem toLower_cases (c : Char) :
    c.toLower = c ∨ 65 ≤ c.toNat ∧ c.toNat ≤ 90 ∧ c.toLower.toNat = c.toNat + 32 := by
  unfold Char.toLower
  split
  next h =>
    right
    have hlow : 65 ≤ c.val.toNat := UInt32.le_iff_toNat_le.mp h.1
    have hhigh : c.val.toNat ≤ 90 := UInt32.le_iff_toNat_le.mp h.2
    refine ⟨hlow, hhigh, ?_⟩
    change (c.val + 32).toNat = c.val.toNat + 32
    rw [UInt32.toNat_add, show (32 : UInt32).toNat = 32 from rfl]
    omega
  next => exact .inl rfl

theorem toList_toLower (text : String) :
    text.toLower.toList = text.toList.map Char.toLower :=
  String.toList_map

theorem toLower_eq_zero {c : Char} (h : c.toLower = '0') : c = '0' := by
  rcases toLower_cases c with hc | ⟨hlow, -, hc⟩
  · rw [← hc, h]
  · rw [h, show '0'.toNat = 48 from rfl] at hc
    omega

theorem toLower_eq_x {c : Char} (h : c.toLower = 'x') : c = 'x' ∨ c = 'X' := by
  rcases toLower_cases c with hc | ⟨-, -, hc⟩
  · rw [← hc]
    exact .inl h
  · right
    rw [h, show 'x'.toNat = 'X'.toNat + 32 from rfl] at hc
    exact Char.toNat_inj.mp (by omega)

namespace Hex

/-! ### Digits -/

def alphabet : List Char :=
  ['0', '1', '2', '3', '4', '5', '6', '7', '8', '9', 'a', 'b', 'c', 'd', 'e', 'f']

def IsDigit (c : Char) : Prop := c.toLower ∈ alphabet

instance : DecidablePred IsDigit := fun c => inferInstanceAs (Decidable (c.toLower ∈ alphabet))

/-- The value of a digit is its place in the alphabet. -/
def valueOf (c : Char) : Nat := alphabet.idxOf c.toLower

theorem toNat_lt_of_isDigit {c : Char} (h : IsDigit c) : c.toNat < 128 := by
  have hascii : ∀ d ∈ alphabet, d.toNat < 128 := List.all_iff_forall_prop.mp rfl
  have hlower := hascii _ h
  rcases toLower_cases c with hc | ⟨-, hhigh, -⟩
  · rwa [hc] at hlower
  · omega

/-- A text has only digits if all of its bytes are digits. -/
theorem isDigit_utf8 {text : List Char} :
    (∀ byte ∈ utf8 text, IsDigit (Char.ofUInt8 byte)) ↔ ∀ c ∈ text, IsDigit c := by
  constructor
  · intro h c hc
    have hbytes : ∀ byte ∈ String.utf8EncodeChar c, IsDigit (Char.ofUInt8 byte) := by
      intro byte hbyte
      exact h byte (List.mem_flatMap.mpr ⟨c, hc, hbyte⟩)
    rcases Nat.lt_or_ge c.toNat 128 with hascii | hlarge
    · obtain ⟨byte, hbyte, hchar⟩ := utf8EncodeChar_of_ascii hascii
      rw [hbyte] at hbytes
      rw [← hchar]
      exact hbytes byte List.mem_cons_self
    · -- a character beyond ASCII has a byte that is no digit
      obtain ⟨byte, hbyte, hbig⟩ := exists_large_byte hlarge
      have hsmall : byte.toNat < 128 := toNat_lt_of_isDigit (hbytes byte hbyte)
      omega
  · intro h byte hbyte
    apply h
    rw [← map_utf8_of_ascii fun c hc => toNat_lt_of_isDigit (h c hc)]
    exact List.mem_map_of_mem hbyte

theorem digit_mem_alphabet {value : UInt8} (h : value < 16) :
    digit value ∈ alphabet ∧ alphabet.idxOf (digit value) = value.toNat := by
  have hall : ∀ n : Fin 16, digit (UInt8.ofNat n) ∈ alphabet ∧
      alphabet.idxOf (digit (UInt8.ofNat n)) = n := by
    decide
  have hvalue := hall ⟨value.toNat, h⟩
  rwa [UInt8.ofNat_toNat] at hvalue

theorem digitValue?_eq (byte : UInt8) :
    digitValue? byte = if IsDigit (Char.ofUInt8 byte)
      then some (UInt8.ofNat (valueOf (Char.ofUInt8 byte))) else none := by
  have hall : ∀ n : Fin 256, digitValue? (UInt8.ofNat n) =
      if IsDigit (Char.ofUInt8 (UInt8.ofNat n))
      then some (UInt8.ofNat (valueOf (Char.ofUInt8 (UInt8.ofNat n)))) else none := by
    decide +kernel
  have hbyte := hall ⟨byte.toNat, byte.toNat_lt⟩
  rwa [UInt8.ofNat_toNat] at hbyte

/-- A byte is read as the value whose digit it is in lowercase. -/
theorem digitValue?_eq_some {byte value : UInt8} :
    digitValue? byte = some value ↔ value < 16 ∧ digit value = (Char.ofUInt8 byte).toLower := by
  rw [digitValue?_eq]
  constructor
  · intro h
    split at h
    next hdigit =>
      cases h
      -- sixteen digits, each looked up
      have hback : ∀ c ∈ alphabet, UInt8.ofNat (alphabet.idxOf c) < 16 ∧
          digit (UInt8.ofNat (alphabet.idxOf c)) = c :=
        List.all_iff_forall_prop.mp rfl
      exact hback _ hdigit
    next => cases h
  · rintro ⟨hlt, hdigit⟩
    obtain ⟨hmem, hvalue⟩ := digit_mem_alphabet hlt
    rw [hdigit] at hmem hvalue
    have hvalue' : valueOf (Char.ofUInt8 byte) = value.toNat := hvalue
    rw [if_pos (show IsDigit (Char.ofUInt8 byte) from hmem), hvalue', UInt8.ofNat_toNat]

/-! ### Encoding -/

theorem byte_halves (b : UInt8) : b / 16 < 16 ∧ b % 16 < 16 ∧ b / 16 * 16 + b % 16 = b := by
  have hb := b.toNat_lt
  refine ⟨UInt8.lt_iff_toNat_lt.mpr ?_, UInt8.lt_iff_toNat_lt.mpr ?_, UInt8.toNat_inj.mp ?_⟩
  · rw [UInt8.toNat_div]
    exact Nat.div_lt_of_lt_mul hb
  · rw [UInt8.toNat_mod]
    exact Nat.mod_lt _ (by decide)
  · rw [UInt8.toNat_add, UInt8.toNat_mul, UInt8.toNat_div, UInt8.toNat_mod,
      show (16 : UInt8).toNat = 16 from rfl]
    omega

theorem halves_sum {high low : UInt8} (hhigh : high < 16) (hlow : low < 16) :
    (high * 16 + low) / 16 = high ∧ (high * 16 + low) % 16 = low := by
  rw [UInt8.lt_iff_toNat_lt, show (16 : UInt8).toNat = 16 from rfl] at hhigh hlow
  constructor <;> apply UInt8.toNat_inj.mp
  · rw [UInt8.toNat_div, UInt8.toNat_add, UInt8.toNat_mul, show (16 : UInt8).toNat = 16 from rfl]
    omega
  · rw [UInt8.toNat_mod, UInt8.toNat_add, UInt8.toNat_mul, show (16 : UInt8).toNat = 16 from rfl]
    omega

theorem encode_cons (b : UInt8) (rest : List UInt8) :
    encode (b :: rest) = digit (b / 16) :: digit (b % 16) :: encode rest := rfl

theorem length_encode (bytes : List UInt8) : (encode bytes).length = 2 * bytes.length := by
  induction bytes with
  | nil => rfl
  | cons b rest ih =>
    simp only [encode_cons, List.length_cons, ih]
    omega

theorem mem_alphabet_of_mem_encode {bytes : List UInt8} {c : Char} (h : c ∈ encode bytes) :
    c ∈ alphabet := by
  obtain ⟨b, -, hc⟩ := List.mem_flatMap.mp h
  obtain ⟨hhigh, hlow, -⟩ := byte_halves b
  simp only [List.mem_cons, List.not_mem_nil, or_false] at hc
  rcases hc with rfl | rfl
  · exact (digit_mem_alphabet hhigh).1
  · exact (digit_mem_alphabet hlow).1

theorem toLower_of_mem_alphabet {c : Char} (h : c ∈ alphabet) : c.toLower = c := by
  have hall : ∀ c ∈ alphabet, c.toLower = c := List.all_iff_forall_prop.mp rfl
  exact hall c h

/-! ### Decoding -/

theorem decodePairs_cons_eq_ok {position : Nat} {high low : UInt8} {rest bytes : List UInt8} :
    decodePairs position (high :: low :: rest) = .ok bytes ↔
      ∃ h l tail, digitValue? high = some h ∧ digitValue? low = some l ∧
        decodePairs (position + 2) rest = .ok tail ∧ (h * 16 + l) :: tail = bytes := by
  rw [decodePairs]
  cases digitValue? high with
  | none => simp
  | some h =>
    cases digitValue? low with
    | none => simp
    | some l => cases decodePairs (position + 2) rest <;> simp [Except.map]

/-- A text is read as the bytes whose encoding it is in lowercase. -/
theorem decodePairs_eq_ok {position : Nat} : {text bytes : List UInt8} →
    (decodePairs position text = .ok bytes ↔
      encode bytes = text.map fun byte => (Char.ofUInt8 byte).toLower)
  | [], [] => by simp [decodePairs, encode]
  | [], _ :: _ => by simp [decodePairs, encode_cons]
  | [_], [] => by simp [decodePairs, encode]
  | [_], _ :: _ => by simp [decodePairs, encode_cons]
  | high :: low :: rest, [] => by simp [decodePairs_cons_eq_ok, encode]
  | high :: low :: rest, b :: tail => by
    obtain ⟨hhigh, hlow, hb⟩ := byte_halves b
    rw [decodePairs_cons_eq_ok, encode_cons, List.map_cons, List.map_cons, List.cons_eq_cons,
      List.cons_eq_cons]
    constructor
    · rintro ⟨h, l, tail, hh, hl, hrest, ⟨⟩⟩
      obtain ⟨hh, hdigit⟩ := digitValue?_eq_some.mp hh
      obtain ⟨hl, hdigit'⟩ := digitValue?_eq_some.mp hl
      obtain ⟨hsum, hsum'⟩ := halves_sum hh hl
      rw [hsum, hsum']
      exact ⟨hdigit, hdigit', decodePairs_eq_ok.mp hrest⟩
    · rintro ⟨hdigit, hdigit', hrest⟩
      refine ⟨b / 16, b % 16, tail, ?_, ?_, decodePairs_eq_ok.mpr hrest, by rw [hb]⟩
      · exact digitValue?_eq_some.mpr ⟨hhigh, hdigit⟩
      · exact digitValue?_eq_some.mpr ⟨hlow, hdigit'⟩

theorem exists_digitValue? {byte : UInt8} :
    (∃ value, digitValue? byte = some value) ↔ IsDigit (Char.ofUInt8 byte) := by
  rw [digitValue?_eq]
  split
  next h => simp [h]
  next h => simp [h]

/-- A text is read if it has two digits for each byte. -/
theorem decodePairs_isOk {position : Nat} : {text : List UInt8} →
    ((∃ bytes, decodePairs position text = .ok bytes) ↔
      text.length % 2 = 0 ∧ ∀ byte ∈ text, IsDigit (Char.ofUInt8 byte))
  | [] => by simp [decodePairs]
  | [_] => by simp [decodePairs]
  | high :: low :: rest => by
    rw [List.forall_mem_cons, List.forall_mem_cons, ← exists_digitValue?, ← exists_digitValue?,
      List.length_cons, List.length_cons, Nat.add_assoc, Nat.add_mod_right]
    constructor
    · rintro ⟨bytes, hbytes⟩
      obtain ⟨h, l, tail, hh, hl, hrest, -⟩ := decodePairs_cons_eq_ok.mp hbytes
      obtain ⟨heven, hdigits⟩ := decodePairs_isOk.mp ⟨tail, hrest⟩
      exact ⟨heven, ⟨h, hh⟩, ⟨l, hl⟩, hdigits⟩
    · rintro ⟨heven, ⟨h, hh⟩, ⟨l, hl⟩, hdigits⟩
      obtain ⟨tail, hrest⟩ := decodePairs_isOk.mpr ⟨heven, hdigits⟩
      exact ⟨_, decodePairs_cons_eq_ok.mpr ⟨h, l, tail, hh, hl, hrest, rfl⟩⟩

/-- The digits of the bytes read are those of the text in lower case. -/
theorem decode_eq_ok {text bytes : List UInt8} :
    decode text = .ok bytes ↔
      encode bytes = text.map fun byte => (Char.ofUInt8 byte).toLower := by
  rw [decode]
  split
  next hodd =>
    constructor
    · nofun
    · intro h
      have hlength := congrArg List.length h
      rw [length_encode, List.length_map] at hlength
      omega
  next => exact decodePairs_eq_ok

theorem length_of_decode {text bytes : List UInt8} (h : decode text = .ok bytes) :
    text.length = 2 * bytes.length := by
  rw [← length_encode, decode_eq_ok.mp h, List.length_map]

theorem decode_isOk {text : List UInt8} :
    (∃ bytes, decode text = .ok bytes) ↔
      text.length % 2 = 0 ∧ ∀ byte ∈ text, IsDigit (Char.ofUInt8 byte) := by
  rw [decode]
  split
  next hodd => simp [hodd]
  next => exact decodePairs_isOk

/-! ### Texts -/

variable {text : List Char} {bytes : List UInt8}

theorem toNat_lt_of_forall (h : ∀ c ∈ text, IsDigit c) : ∀ c ∈ text, c.toNat < 128 := by
  intro c hc
  exact toNat_lt_of_isDigit (h c hc)

theorem length_utf8 (h : ∀ c ∈ text, IsDigit c) : (utf8 text).length = text.length := by
  have hchars := map_utf8_of_ascii (toNat_lt_of_forall h)
  rw [← List.length_map Char.ofUInt8, hchars]

theorem map_toLower_utf8 (h : ∀ c ∈ text, IsDigit c) :
    ((utf8 text).map fun byte => (Char.ofUInt8 byte).toLower) = text.map Char.toLower := by
  have hchars := map_utf8_of_ascii (toNat_lt_of_forall h)
  conv_rhs => rw [← hchars]
  rw [List.map_map]
  rfl

/-- A text is read as bytes if it is their encoding but for the case of its letters. -/
theorem decode_utf8_eq_ok :
    decode (utf8 text) = .ok bytes ↔ encode bytes = text.map Char.toLower := by
  rw [decode_eq_ok]
  constructor
  · intro h
    obtain ⟨-, hdigits⟩ := decode_isOk.mp ⟨bytes, decode_eq_ok.mpr h⟩
    rw [h, map_toLower_utf8 (isDigit_utf8.mp hdigits)]
  · intro h
    have hdigits : ∀ c ∈ text, IsDigit c := by
      intro c hc
      have hlower : c.toLower ∈ encode bytes := by
        rw [h]
        exact List.mem_map_of_mem hc
      exact mem_alphabet_of_mem_encode hlower
    rw [h, map_toLower_utf8 hdigits]

theorem decode_encode (bytes : List UInt8) : decode (utf8 (encode bytes)) = .ok bytes := by
  rw [decode_utf8_eq_ok]
  have hlower : (encode bytes).map Char.toLower = (encode bytes).map id :=
    List.map_congr_left fun c hc => toLower_of_mem_alphabet (mem_alphabet_of_mem_encode hc)
  rw [hlower, List.map_id]

/-! ### The mark -/

/-- The digits stand behind the `0x` or `0X` with which the text starts. -/
def Marked (text : String) (digits : List Char) : Prop :=
  text.toList = '0' :: 'x' :: digits ∨ text.toList = '0' :: 'X' :: digits

theorem toList_toLower_eq {text : String} {lower : List Char} :
    text.toLower.toList = '0' :: 'x' :: lower ↔
      ∃ digits, Marked text digits ∧ digits.map Char.toLower = lower := by
  rw [toList_toLower]
  constructor
  · intro h
    obtain ⟨c, rest, htext, hc, hrest⟩ := List.map_eq_cons_iff.mp h
    obtain ⟨c', digits, rfl, hc', hdigits⟩ := List.map_eq_cons_iff.mp hrest
    refine ⟨digits, ?_, hdigits⟩
    rw [Marked, htext, toLower_eq_zero hc]
    rcases toLower_eq_x hc' with rfl | rfl
    · exact .inl rfl
    · exact .inr rfl
  · rintro ⟨digits, hmarked, rfl⟩
    rcases hmarked with htext | htext <;> rw [htext] <;> rfl

/-! ### Numbers -/

def number (digits : List Char) : Nat := Nat.ofDigits 16 (digits.map valueOf).reverse

theorem number_toLower (h : ∀ c ∈ text, IsDigit c) :
    number (text.map Char.toLower) = number text := by
  have hvalues : (text.map Char.toLower).map valueOf = text.map valueOf := by
    rw [List.map_map]
    apply List.map_congr_left
    intro c hc
    rw [Function.comp_apply, valueOf, toLower_of_mem_alphabet (h c hc), valueOf]
  rw [number, number, hvalues]

/-- The digits of bytes write the number of the bytes. -/
theorem number_encode (bytes : List UInt8) :
    number (encode bytes) = bigEndian bytes := by
  induction bytes with
  | nil => rfl
  | cons b rest ih =>
    obtain ⟨hhigh, hlow, -⟩ := byte_halves b
    have hvalue : ∀ {value : UInt8}, value < 16 → valueOf (digit value) = value.toNat := by
      intro value h
      obtain ⟨hmem, hplace⟩ := digit_mem_alphabet h
      rw [valueOf, toLower_of_mem_alphabet hmem, hplace]
    rw [number] at ih
    rw [number, encode_cons, List.map_cons, List.map_cons, Nat.ofDigits_reverse_cons,
      Nat.ofDigits_reverse_cons, ih, hvalue hhigh, hvalue hlow, bigEndian_cons]
    simp only [List.length_cons, List.length_map, length_encode, Nat.pow_succ, Nat.pow_mul]
    have hb : b.toNat = 16 * (b / 16).toNat + (b % 16).toNat := by
      rw [UInt8.toNat_div, UInt8.toNat_mod]
      exact (Nat.div_add_mod b.toNat 16).symm
    rw [hb]
    ring

end Hex
end DynamicQuorum.Text
