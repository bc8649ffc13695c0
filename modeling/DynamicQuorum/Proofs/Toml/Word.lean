/-
  DynamicQuorum/Proofs/Toml/Word.lean
  ===================================
  **Words at the end of a line, and numerals among them.**

  A word at the end of a line is read up to the line break and classified as a whole.  Digits alone
  are no truth value, no date and no float, since each of these has a character that is no
  digit; and the numeral of a number has no zero in front.
-/
import DynamicQuorum.Toml.Word
import DynamicQuorum.Proofs.Text.Digits

namespace DynamicQuorum.Toml.Word

variable {word rest ds : List Char} {c : Char}

/-- A character of a class is none that lies outside it. -/
theorem ne_of_class {p : Char → Bool} {d : Char} (h : p c = true) (hd : p d = false) : c ≠ d := by
  rintro rfl
  rw [h] at hd
  cases hd

/-! ### The end of a word -/

theorem split_word (h : ∀ c ∈ word, isWordChar c = true) :
    split (word ++ '\n' :: rest) = (word, '\n' :: rest) := by
  have htake : (word ++ '\n' :: rest).takeWhile isWordChar = word := by
    rw [List.takeWhile_append_of_pos h, List.takeWhile_cons_of_neg (by decide), List.append_nil]
  have hdrop : (word ++ '\n' :: rest).dropWhile isWordChar = '\n' :: rest := by
    rw [List.dropWhile_append_of_pos h, List.dropWhile_cons_of_neg (by decide)]
  rw [split, htake, hdrop]
  split
  next heq => cases (List.cons.inj heq).1
  next => rfl

theorem read?_word (h : ∀ c ∈ word, isWordChar c = true) :
    read? (word ++ '\n' :: rest) = (classify word).map fun value => (value, '\n' :: rest) := by
  rw [read?, split_word h]

/-! ### Digits -/

theorem hexDigit?_of_isDigit (h : c.isDigit = true) :
    Quoted.hexDigit? c = some (c.toNat - '0'.toNat) := by
  obtain ⟨hlow, hhigh⟩ := Char.isDigit_iff_toNat.mp h
  exact if_pos ⟨hlow, hhigh⟩

theorem isDigitOf_ten (h : c.isDigit = true) : isDigitOf 10 c = true := by
  rw [isDigitOf, hexDigit?_of_isDigit h]
  exact decide_eq_true (Text.digit_lt_ten h)

theorem moreDigits_digits (h : ∀ c ∈ ds, c.isDigit = true) :
    moreDigits (isDigitOf 10) ds = (ds, []) := by
  induction ds with
  | nil => rw [moreDigits]
  | cons c ds ih =>
    obtain ⟨hc, hrest⟩ := List.forall_mem_cons.mp h
    rw [moreDigits, if_pos (isDigitOf_ten hc), ih hrest]
    rintro d rest rfl
    exact absurd rfl (ne_of_class hc rfl)

theorem digits_digits (h : ∀ c ∈ ds, c.isDigit = true) : digits (isDigitOf 10) ds = (ds, []) := by
  cases ds with
  | nil => rfl
  | cons c ds => rw [digits, if_pos (isDigitOf_ten (h c List.mem_cons_self)), moreDigits_digits h]

theorem numeral_digits (h : ∀ c ∈ ds, c.isDigit = true) :
    numeral 10 ds = Nat.ofDigitChars 10 ds 0 := by
  have hfold : ∀ acc, ds.foldl (fun acc c => acc * 10 + (Quoted.hexDigit? c).getD 0) acc =
      Nat.ofDigitChars 10 ds acc := by
    induction ds with
    | nil => exact fun _ => rfl
    | cons c ds ih =>
      intro acc
      obtain ⟨hc, hrest⟩ := List.forall_mem_cons.mp h
      rw [List.foldl_cons, ih hrest, hexDigit?_of_isDigit hc, Nat.mul_comm, Nat.ofDigitChars_cons]
      rfl
  exact hfold 0

theorem splitSign_digits (h : ∀ c ∈ ds, c.isDigit = true) : splitSign ds = (false, ds) := by
  cases ds with
  | nil => rfl
  | cons c ds =>
    have hc := h c List.mem_cons_self
    rw [splitSign]
    · rintro rest ⟨⟩
      exact ne_of_class hc rfl rfl
    · rintro rest ⟨⟩
      exact ne_of_class hc rfl rfl

/-! ### A numeral is no other word -/

theorem behind?_digits {d : Char} (h : ∀ c ∈ ds, c.isDigit = true) (hd : d.isDigit = false) :
    behind? d ds = none := by
  cases ds with
  | nil => rfl
  | cons c ds => exact if_neg (ne_of_class (h c List.mem_cons_self) hd)

theorem field?_digits {count low high n : Nat} (h : ∀ c ∈ ds, c.isDigit = true)
    (hfield : field? count low high ds = some (n, rest)) : ∀ c ∈ rest, c.isDigit = true := by
  unfold field? at hfield
  dsimp only at hfield
  split_ifs at hfield
  obtain ⟨-, rfl⟩ := Prod.mk.inj (Option.some.inj hfield)
  exact fun c hc => h c (List.mem_of_mem_drop hc)

theorem time?_digits (h : ∀ c ∈ ds, c.isDigit = true) : time? ds = none := by
  rw [time?]
  cases hfield : field? 2 0 23 ds with
  | none => rfl
  | some read => simp [behind?_digits (field?_digits h hfield) (d := ':') rfl]

theorem day?_digits (h : ∀ c ∈ ds, c.isDigit = true) : day? ds = none := by
  rw [day?]
  cases hfield : field? 4 0 9999 ds with
  | none => rfl
  | some read => simp [behind?_digits (field?_digits h hfield) (d := '-') rfl]

theorem isDate_digits (h : ∀ c ∈ ds, c.isDigit = true) : isDate ds = false := by
  simp [isDate, time?_digits h, day?_digits h]

theorem isFloat_digits (h : ∀ c ∈ ds, c.isDigit = true) : isFloat ds = false := by
  have hinf : ds ≠ ['i', 'n', 'f'] := by
    rintro rfl
    exact absurd (h 'i' List.mem_cons_self) (by decide)
  have hnan : ds ≠ ['n', 'a', 'n'] := by
    rintro rfl
    exact absurd (h 'n' List.mem_cons_self) (by decide)
  simp [isFloat, splitSign_digits h, digits_digits h, hinf, hnan]

/-! ### Whole numbers -/

theorem isWhole_toDigits (n : Nat) : isWhole (Nat.toDigits 10 n) = true := by
  rcases Nat.eq_zero_or_pos n with rfl | hn
  · rfl
  · obtain ⟨c, digits, hdigits, hzero, -⟩ := Text.toDigits_eq_cons hn
    rw [hdigits]
    unfold isWhole
    split
    next heq => cases heq
    next => rfl
    next heq => exact absurd (List.cons.inj heq).1 hzero
    next => rfl

theorem decimal_toDigits {n : Nat} (h : n < integerLimit) :
    decimal (Nat.toDigits 10 n) = some n := by
  have hall : ∀ c ∈ Nat.toDigits 10 n, c.isDigit = true := fun _ => Text.isDigit_of_mem_toDigits
  have hnumeral : numeral 10 (Nat.toDigits 10 n) = n := by
    rw [numeral_digits hall, Nat.ofDigitChars_ten_toDigits]
  simp [decimal, splitSign_digits hall, digits_digits hall, hnumeral, isWhole_toDigits, h]

theorem integer_digits (h : ∀ c ∈ ds, c.isDigit = true) : integer ds = decimal ds := by
  unfold integer
  split
  · exact absurd (h 'x' (by simp)) (by decide)
  · exact absurd (h 'o' (by simp)) (by decide)
  · exact absurd (h 'b' (by simp)) (by decide)
  · rfl

theorem classify_toDigits {n : Nat} (h : n < integerLimit) :
    classify (Nat.toDigits 10 n) = some (.integer n) := by
  have hall : ∀ c ∈ Nat.toDigits 10 n, c.isDigit = true := fun _ => Text.isDigit_of_mem_toDigits
  have htrue : Nat.toDigits 10 n ≠ ['t', 'r', 'u', 'e'] := by
    intro heq
    exact absurd (hall 't' (heq ▸ List.mem_cons_self)) (by decide)
  have hfalse : Nat.toDigits 10 n ≠ ['f', 'a', 'l', 's', 'e'] := by
    intro heq
    exact absurd (hall 'f' (heq ▸ List.mem_cons_self)) (by decide)
  rw [classify, if_neg htrue, if_neg hfalse, isDate_digits hall, isFloat_digits hall,
    integer_digits hall, decimal_toDigits h]
  rfl

/-- A natural number that was written is read back if it fits 64 bits with a sign. -/
theorem read?_toDigits {n : Nat} (h : n < integerLimit) (rest : List Char) :
    read? (Nat.toDigits 10 n ++ '\n' :: rest) = some (.integer n, '\n' :: rest) := by
  have hword : ∀ c ∈ Nat.toDigits 10 n, isWordChar c = true := by
    intro c hc
    simp [isWordChar, Char.isAlphanum, Text.isDigit_of_mem_toDigits hc]
  rw [read?_word hword, classify_toDigits h]
  rfl

end DynamicQuorum.Toml.Word
