/-
  DynamicQuorum/Proofs/Json/Token.lean
  ====================================
  **The tokens of a written value.**

  Every token ends with its last character, but for a numeral, which goes on until a character
  behind it ends it.  What follows a value that was written, on one line or indented, is a
  comma, a closing bracket or brace, a line break, or nothing; so the scan of the text is the
  scan of its parts.
-/
import DynamicQuorum.Json.Value
import DynamicQuorum.Proofs.Text.Digits

namespace DynamicQuorum.Json

namespace Token

variable {text rest : List Char} {tokens done : List Token}

theorem scan_cons {c : Char} {mode next : Mode} {front : List Token}
    (h : step? c mode = some (front, next)) :
    scan done mode (c :: rest) = scan (front.reverseAux done) next rest := by
  rw [scan, h]

/-! ### Numerals -/

/-- The text ends a numeral in front of it. -/
def Ends (rest : List Char) : Prop :=
  ∀ c ∈ rest.head?, c = ',' ∨ c = ']' ∨ c = '\x7d' ∨ c = '\n'

theorem Ends.nil : Ends [] := nofun

theorem Ends.cons {c : Char} (hc : c = ',' ∨ c = ']' ∨ c = '\x7d' ∨ c = '\n')
    (text : List Char) : Ends (c :: text) := by
  rintro c' ⟨⟩
  exact hc

theorem Ends.append (htext : Ends text) (hrest : Ends rest) : Ends (text ++ rest) := by
  cases text with
  | nil => exact hrest
  | cons c text => exact htext

theorem scan_numeral_end {phase : NumeralPhase} (hphase : phase = .zero ∨ phase = .whole)
    (value : Number) (h : Ends rest) :
    scan done (.numeral phase value) rest = scan (.number value :: done) .idle rest := by
  cases rest with
  | nil => rcases hphase with rfl | rfl <;> simp [scan, finish, NumeralPhase.isFinal]
  | cons c rest =>
    rcases hphase with rfl | rfl <;> rcases h c rfl with rfl | rfl | rfl | rfl <;> rfl

theorem isBlank_of_isDigit {c : Char} (h : c.isDigit = true) : isBlank c = false := by
  have hne : ∀ b : Char, b.isDigit = false → c ≠ b := by
    rintro b hb rfl
    rw [h] at hb
    cases hb
  simp [isBlank, hne ' ' rfl, hne '\n' rfl, hne '\t' rfl, hne '\r' rfl]

theorem start?_of_isDigit {c : Char} (h : c.isDigit = true) :
    start? c = some ([], .numeral (if c = '0' then .zero else .whole)
      ⟨false, [c.toNat - '0'.toNat], [], none⟩) := by
  have hblank : ¬ isBlank c = true := by
    rw [isBlank_of_isDigit h]
    decide
  unfold start?
  rw [if_neg hblank, if_pos h]

theorem scan_digits {digits : List Char} (h : ∀ c ∈ digits, c.isDigit = true) (negative : Bool)
    (whole : List Nat) :
    scan done (.numeral .whole ⟨negative, whole, [], none⟩) (digits ++ rest) =
      scan done (.numeral .whole
        ⟨negative, whole ++ digits.map (fun c => c.toNat - '0'.toNat), [], none⟩) rest := by
  induction digits generalizing whole with
  | nil => rw [List.nil_append, List.map_nil, List.append_nil]
  | cons c digits ih =>
    have hstep : step? c (.numeral .whole ⟨negative, whole, [], none⟩) =
        some ([], .numeral .whole ⟨negative, whole ++ [c.toNat - '0'.toNat], [], none⟩) := by
      rw [step?, numeralStep]
      simp only [if_pos (h c List.mem_cons_self)]
    rw [List.cons_append, scan_cons hstep]
    refine (ih (fun c hc => h c (List.mem_cons_of_mem _ hc)) _).trans ?_
    rw [List.append_assoc, List.map_cons, List.singleton_append]

/-- A numeral that does not start with a zero, behind a sign or none. -/
theorem scan_numeral {n : Nat} (hn : 0 < n) (negative : Bool) (h : Ends rest) :
    scan done (.numeral .sign ⟨negative, [], [], none⟩) (Nat.toDigits 10 n ++ rest) =
      scan (.number ⟨negative, Number.digits n, [], none⟩ :: done) .idle rest := by
  obtain ⟨c, digits, hdigits, hzero, hc, hrest⟩ := Text.toDigits_eq_cons hn
  have hstep : step? c (.numeral .sign ⟨negative, [], [], none⟩) =
      some ([], .numeral .whole ⟨negative, [c.toNat - '0'.toNat], [], none⟩) := by
    rw [step?, numeralStep]
    simp only [if_neg hzero, if_pos hc, List.nil_append]
  rw [Number.digits, hdigits, List.cons_append, scan_cons hstep]
  refine (scan_digits hrest _ _).trans ?_
  exact scan_numeral_end (.inr rfl) _ h

/-- A digit that starts a numeral is read as one behind no sign. -/
theorem scan_start {c : Char} (hc : c.isDigit = true) (hzero : c ≠ '0') :
    scan done .idle (c :: rest) =
      scan done (.numeral .sign ⟨false, [], [], none⟩) (c :: rest) := by
  rw [scan, scan, step?, step?, start?_of_isDigit hc, numeralStep]
  simp only [if_neg hzero, if_pos hc, List.nil_append]

/-! ### Words -/

theorem scan_word {word : List Char} (token : Token) (hne : word ≠ []) :
    scan done (.word word token) (word ++ rest) = scan (token :: done) .idle rest := by
  induction word with
  | nil => exact absurd rfl hne
  | cons c word ih =>
    cases word with
    | nil =>
      have hlast : step? c (.word [c] token) = some ([token], .idle) := if_pos rfl
      exact scan_cons hlast
    | cons c' word =>
      have hnext : step? c (.word (c :: c' :: word) token) =
          some ([], .word (c' :: word) token) := if_pos rfl
      rw [List.cons_append, scan_cons hnext]
      exact ih (List.cons_ne_nil _ _)

/-! ### Texts and their tokens -/

/-- The text has these tokens, if what follows it ends its last numeral. -/
def Scans (text : List Char) (tokens : List Token) : Prop :=
  ∀ done rest, Ends rest →
    scan done .idle (text ++ rest) = scan (tokens.reverseAux done) .idle rest

theorem Scans.ofText (h : Scans text tokens) : ofText text = tokens := by
  have hscan := h [] [] .nil
  rw [List.append_nil] at hscan
  rw [Token.ofText, hscan]
  simp [scan, finish, List.reverseAux_eq]

theorem Scans.nil : Scans [] [] := fun _ _ _ => rfl

theorem Scans.append {text' : List Char} {tokens' : List Token} (h : Scans text tokens)
    (hends : Ends text') (h' : Scans text' tokens') :
    Scans (text ++ text') (tokens ++ tokens') := by
  intro done rest hrest
  rw [List.append_assoc, h done _ (hends.append hrest), h' _ _ hrest]
  simp [List.reverseAux_eq]

theorem Scans.mark {c : Char} {token : Token} (hc : start? c = some ([token], .idle))
    (h : Scans text tokens) : Scans (c :: text) (token :: tokens) := by
  intro done rest hrest
  have hstep : step? c .idle = some ([token], .idle) := hc
  rw [List.cons_append, scan_cons hstep]
  exact h _ _ hrest

theorem Scans.blank {c : Char} (hc : start? c = some ([], .idle)) (h : Scans text tokens) :
    Scans (c :: text) tokens := by
  intro done rest hrest
  have hstep : step? c .idle = some ([], .idle) := hc
  rw [List.cons_append, scan_cons hstep]
  exact h _ _ hrest

theorem scans_word {c : Char} {word : List Char} {token : Token} (hne : word ≠ [])
    (hc : start? c = some ([], .word word token)) : Scans (c :: word) [token] := by
  intro done rest _
  have hstep : step? c .idle = some ([], .word word token) := hc
  rw [List.cons_append, scan_cons hstep]
  exact scan_word token hne

theorem scans_natural (n : Nat) : Scans (Nat.toDigits 10 n) [.number (.ofInt (.ofNat n))] := by
  intro done rest hrest
  rcases Nat.eq_zero_or_pos n with rfl | hn
  · have hphase : NumeralPhase.zero = .zero ∨ NumeralPhase.zero = .whole := .inl rfl
    exact scan_numeral_end hphase _ hrest
  · obtain ⟨c, digits, hdigits, hzero, hc, -⟩ := Text.toDigits_eq_cons hn
    have hnumeral := @scan_numeral rest done n hn false hrest
    rw [hdigits, List.cons_append] at hnumeral ⊢
    exact (scan_start hc hzero).trans hnumeral

theorem scans_number (n : Int) : Scans (Value.number n).render [.number (.ofInt n)] := by
  cases n with
  | ofNat n => exact scans_natural n
  | negSucc n =>
    intro done rest hrest
    have hstep : step? '-' .idle = some ([], .numeral .sign ⟨true, [], [], none⟩) := rfl
    rw [Value.render, List.cons_append, scan_cons hstep]
    exact scan_numeral (Nat.succ_pos n) true hrest

/-! ### Strings -/

theorem hexValue?_hexChar {d : Nat} (h : d < 16) : hexValue? (hexChar d) = some d := by
  have hall : ∀ d : Fin 16, hexValue? (hexChar d) = some d.val := by decide
  exact hall ⟨d, h⟩

/-- A control character is read back from the last two digits of its code. -/
theorem scan_control {c : Char} (h : c < ' ') (read : List Char) :
    scan done (.string { text := read })
        ('\\' :: 'u' :: '0' :: '0' :: hexChar (c.toNat / 16) :: hexChar (c.toNat % 16) :: rest) =
      scan done (.string { text := c :: read }) rest := by
  have hc : c.toNat < 32 := h
  have hhigh : step? (hexChar (c.toNat / 16)) (.string { text := read, escape := .hex 2 0 }) =
      some ([], .string { text := read, escape := .hex 3 (c.toNat / 16) }) := by
    simp [step?, hexValue?_hexChar (show c.toNat / 16 < 16 by omega)]
  have hcode : c.toNat / 16 * 16 + c.toNat % 16 = c.toNat := by omega
  have hfirst : isFirstHalf c.toNat = false := by
    simp only [isFirstHalf, Bool.and_eq_false_iff, decide_eq_false_iff_not]
    omega
  have hsecond : isSecondHalf c.toNat = false := by
    simp only [isSecondHalf, Bool.and_eq_false_iff, decide_eq_false_iff_not]
    omega
  have hlow : step? (hexChar (c.toNat % 16))
      (.string { text := read, escape := .hex 3 (c.toNat / 16) }) =
      some ([], .string { text := c :: read }) := by
    simp [step?, hexValue?_hexChar (show c.toNat % 16 < 16 by omega), hcode, StringScan.pushCode,
      hfirst, hsecond]
  exact (scan_cons hhigh).trans (scan_cons hlow)

/-- A written character is read back, escaped or not. -/
theorem scan_escape (c : Char) (read : List Char) :
    scan done (.string { text := read }) (escape c ++ rest) =
      scan done (.string { text := c :: read }) rest := by
  unfold escape
  split
  any_goals rfl
  next hquote hbackslash _ _ _ _ _ =>
    split
    next hcontrol => exact scan_control hcontrol read
    next hplain =>
      have hstep : step? c (.string { text := read }) =
          some ([], .string { text := c :: read }) := by
        simp only [step?, if_neg hquote, if_neg hbackslash, if_neg hplain]
        rfl
      exact scan_cons hstep

theorem scan_escaped (s read : List Char) :
    scan done (.string { text := read }) (s.flatMap escape ++ rest) =
      scan done (.string { text := s.reverse ++ read }) rest := by
  induction s generalizing read with
  | nil => rfl
  | cons c s ih =>
    rw [List.flatMap_cons, List.append_assoc, scan_escape, ih, List.reverse_cons,
      List.append_assoc, List.singleton_append]

theorem Scans.quote (s : String) (h : Scans text tokens) :
    Scans (quote s.toList ++ text) (.string (some s) :: tokens) := by
  intro done rest hrest
  have hopen : step? '"' .idle = some ([], .string {}) := rfl
  have hclose : step? '"' (.string { text := s.toList.reverse }) =
      some ([.string (some s)], .idle) := by
    simp [step?, StringScan.result]
  rw [Token.quote, List.cons_append, List.cons_append, scan_cons hopen, List.append_assoc,
    List.append_assoc]
  refine (scan_escaped s.toList []).trans ?_
  rw [List.append_nil, List.singleton_append, scan_cons hclose]
  exact h _ _ hrest

end Token

end DynamicQuorum.Json
