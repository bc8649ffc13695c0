/-
  DynamicQuorum/Proofs/Toml/Quoted.lean
  =====================================
  **A text that was written between quotes is read back.**

  This holds in each of the four forms.  Where escapes are used, every character is written in a
  way that the reader undoes on the spot.  Where they are not, the form was taken because the text
  has nothing that would need one.  The only delicate place is a quote behind three others or in
  front of them: the closing three take in at most two quotes in front, so a run of three must
  not occur inside.
-/
import DynamicQuorum.Toml.Quoted
import Mathlib.Tactic.SplitIfs

namespace DynamicQuorum.Toml.Quoted

variable {text rest : List Char} {c : Char}

/-! ### Escapes -/

theorem hexDigit?_hexChar {d : Nat} (h : d < 16) : hexDigit? (hexChar d) = some d := by
  have hall : ∀ d : Fin 16, hexDigit? (hexChar d) = some d.val := by decide
  exact hall ⟨d, h⟩

theorem toNat_lt_of_isControl (h : isControl c = true) : c.toNat < 128 := by
  simp only [isControl, Bool.or_eq_true, Bool.and_eq_true, decide_eq_true_eq] at h
  rcases h with ⟨hlow, -⟩ | rfl
  · have : c.toNat < 32 := hlow
    omega
  · decide

/-- A control character is read back from the last two digits of its code. -/
theorem codePoint?_of_isControl (h : isControl c = true) :
    codePoint? ['0', '0', hexChar (c.toNat / 16), hexChar (c.toNat % 16)] = some c := by
  have hc := toNat_lt_of_isControl h
  have hzero : hexDigit? '0' = some 0 := rfl
  have hcode : c.toNat / 16 * 16 + c.toNat % 16 = c.toNat := by omega
  have hplane : c.toNat < 0xD800 := by omega
  simp [codePoint?, hzero, hexDigit?_hexChar (show c.toNat / 16 < 16 by omega),
    hexDigit?_hexChar (show c.toNat % 16 < 16 by omega), hcode, hplane]

/-- What the readers of both forms with escapes do with the parts of a text. -/
structure Unescapes (read : List Char → Option (List Char × List Char)) : Prop where
  code : ∀ h₁ h₂ h₃ h₄ rest, read ('\\' :: 'u' :: h₁ :: h₂ :: h₃ :: h₄ :: rest) =
    (codePoint? [h₁, h₂, h₃, h₄]).bind fun x => push x (read rest)
  letter : ∀ c x rest, unescape? c = some x → read ('\\' :: c :: rest) = push x (read rest)
  plain : ∀ c rest, isControl c = false → c ≠ '"' → c ≠ '\\' →
    read (c :: rest) = push c (read rest)

/-- No letter that stands for a character starts a code, and none is a blank. -/
theorem ne_of_unescape? {x : Char} (h : unescape? c = some x) : c ≠ 'u' ∧ c ≠ 'U' := by
  constructor <;>
  · rintro rfl
    cases h

theorem unescapes_readBasic : Unescapes readBasic where
  code h₁ h₂ h₃ h₄ rest := by rw [readBasic]
  letter c x rest h := by
    obtain ⟨hshort, hlong⟩ := ne_of_unescape? h
    rw [readBasic, h, Option.bind_some]
    · rintro - - - - - rfl
      exact absurd rfl hshort
    · rintro - - - - - - - - - rfl
      exact absurd rfl hlong
  plain c rest hcontrol hquote hbackslash := by
    rw [readBasic]
    · simp [hcontrol]
    all_goals simp_all

theorem unescapes_readMultiBasic : Unescapes (readMultiBasic false) where
  code h₁ h₂ h₃ h₄ rest := by rw [readMultiBasic]
  letter c x rest h := by
    obtain ⟨hshort, hlong⟩ := ne_of_unescape? h
    rw [readMultiBasic]
    · rw [h]
    · rintro - - - - - rfl
      exact absurd rfl hshort
    · rintro - - - - - - - - - rfl
      exact absurd rfl hlong
  plain c rest hcontrol hquote hbackslash := by
    have hbreak : c ≠ '\n' := by rintro rfl; cases hcontrol
    have hreturn : c ≠ '\r' := by rintro rfl; cases hcontrol
    rw [readMultiBasic]
    · simp [hcontrol]
    all_goals simp_all

theorem Unescapes.escape {read : List Char → Option (List Char × List Char)} (h : Unescapes read)
    (c : Char) (rest : List Char) : read (escape c ++ rest) = push c (read rest) := by
  unfold Quoted.escape
  split_ifs with hquote hbackslash _ _ _ _ _ hcontrol
  any_goals
    subst c
    exact h.letter _ _ rest rfl
  · refine (h.code _ _ _ _ rest).trans ?_
    rw [codePoint?_of_isControl hcontrol, Option.bind_some]
  · exact h.plain c rest (by simpa using hcontrol) hquote hbackslash

/-- An escaped character starts with a backslash or is a plain one. -/
theorem head_escape (c : Char) :
    ∃ x tail, escape c = x :: tail ∧ x ≠ '"' ∧ isControl x = false := by
  unfold escape
  split_ifs with hquote _ _ _ _ _ _ hcontrol
  any_goals exact ⟨'\\', _, rfl, by decide, rfl⟩
  exact ⟨c, [], rfl, hquote, by simpa using hcontrol⟩

/-! ### One line -/

theorem readBasic_escaped (text rest : List Char) :
    readBasic (text.flatMap escape ++ '"' :: rest) = some (text, rest) := by
  induction text with
  | nil => rw [List.flatMap_nil, List.nil_append, readBasic]
  | cons c text ih =>
    rw [List.flatMap_cons, List.append_assoc, unescapes_readBasic.escape, ih]
    rfl

theorem readLiteral_plain (hplain : ∀ c ∈ text, isControl c = false) (hquote : apostrophe ∉ text) :
    readLiteral (text ++ apostrophe :: rest) = some (text, rest) := by
  induction text with
  | nil => exact if_pos rfl
  | cons c text ih =>
    have hc : c ≠ apostrophe := fun h => hquote (h ▸ List.mem_cons_self)
    rw [List.cons_append, readLiteral, if_neg hc, hplain c List.mem_cons_self,
      ih (fun x hx => hplain x (List.mem_cons_of_mem _ hx))
        (fun h => hquote (List.mem_cons_of_mem _ h))]
    rfl

/-! ### Several lines -/

/-- What the readers behind three quotes do with further quotes: three of them end the string,
    one or two in front of these belong to it, and any others stand for themselves. -/
structure Closes (q : Char) (read : List Char → Option (List Char × List Char)) : Prop where
  three : ∀ rest, read (q :: q :: q :: '\n' :: rest) = some ([], '\n' :: rest)
  four : ∀ rest, read (q :: q :: q :: q :: '\n' :: rest) = some ([q], '\n' :: rest)
  five : ∀ rest, read (q :: q :: q :: q :: q :: '\n' :: rest) = some ([q, q], '\n' :: rest)
  inner : ∀ text, (∀ tail, text ≠ q :: q :: tail) → read (q :: text) = push q (read text)

theorem closes_readMultiBasic : Closes '"' (readMultiBasic false) where
  three rest := by
    rw [readMultiBasic]
    all_goals simp
  four rest := by
    rw [readMultiBasic]
    simp
  five rest := by rw [readMultiBasic]
  inner text h := by
    rw [readMultiBasic]
    · rfl
    all_goals grind

theorem closes_readMultiLiteral : Closes apostrophe readMultiLiteral where
  three rest := by simp [apostrophe, readMultiLiteral]
  four rest := by simp [apostrophe, readMultiLiteral]
  five rest := by simp [apostrophe, readMultiLiteral]
  inner text h := by
    rw [readMultiLiteral]
    · rfl
    all_goals grind [apostrophe]

variable {read : List Char → Option (List Char × List Char)}

/-- A quote in front of a string that is read to its end belongs to it, unless it is the third of
    a run. -/
theorem Closes.push (h : Closes c read) (hrun : ∀ tail, text ≠ c :: c :: tail) :
    read (c :: (text ++ c :: c :: c :: '\n' :: rest)) =
      Quoted.push c (read (text ++ c :: c :: c :: '\n' :: rest)) := by
  -- only right in front of the closing three does the quote make a longer run with them
  cases text with
  | nil =>
    rw [List.nil_append, h.four, h.three]
    rfl
  | cons x tail =>
    cases tail with
    | nil =>
      by_cases hx : x = c
      · subst x
        rw [List.singleton_append, h.five, h.four]
        rfl
      · refine h.inner _ fun tail heq => hx ?_
        injection heq
    | cons y tail =>
      refine h.inner _ fun tail' heq => hrun tail ?_
      injection heq with hx heq
      injection heq with hy
      rw [hx, hy]

theorem escapeMulti_ne_quote (h : c ≠ '"') (run : Nat) (text tail : List Char) :
    escapeMulti run (c :: text) ≠ '"' :: tail := by
  intro heq
  rw [escapeMulti, if_neg h] at heq
  obtain ⟨x, front, hx, hquote, -⟩ := head_escape c
  rw [hx] at heq
  split_ifs at heq
  · injection heq with hhead
    cases hhead
  · injection heq with hhead
    exact hquote hhead

/-- Behind a quote there is at most one more that is not escaped. -/
theorem escapeMulti_ne {run : Nat} (hrun : 0 < run) (text tail : List Char) :
    escapeMulti run text ≠ '"' :: '"' :: tail := by
  intro heq
  rcases text with - | ⟨c, text⟩
  · cases heq
  by_cases hc : c = '"'
  · subst c
    rw [escapeMulti, if_pos rfl] at heq
    split_ifs at heq with hroom
    · -- the quote stands for itself, so the next character decides
      injection heq with _ heq
      rcases text with - | ⟨x, text⟩
      · cases heq
      · by_cases hx : x = '"'
        · subst x
          rw [escapeMulti, if_pos rfl, if_neg (by omega)] at heq
          cases heq
        · exact escapeMulti_ne_quote hx _ _ _ heq
    · cases heq
  · exact escapeMulti_ne_quote hc _ _ _ heq

/-- What was written between triple quotes is read back, whatever follows the line. -/
theorem readMultiBasic_escaped (run : Nat) (text rest : List Char) :
    readMultiBasic false (escapeMulti run text ++ '"' :: '"' :: '"' :: '\n' :: rest) =
      some (text, '\n' :: rest) := by
  induction text generalizing run with
  | nil => exact closes_readMultiBasic.three rest
  | cons c text ih =>
    rw [escapeMulti]
    split_ifs with hquote hroom hbreak
    · -- the quote stands for itself: at most one more does behind it
      subst c
      rw [List.cons_append,
        closes_readMultiBasic.push (escapeMulti_ne run.succ_pos text), ih]
      rfl
    · subst c
      rw [List.cons_append, List.cons_append, unescapes_readMultiBasic.letter '"' '"' _ rfl, ih]
      rfl
    · subst c
      rw [List.cons_append, readMultiBasic, ih]
      rfl
    · rw [List.append_assoc, unescapes_readMultiBasic.escape, ih]
      rfl

theorem le_longestRun (q : Char) (run : Nat) (text : List Char) : run ≤ longestRun q run text := by
  induction text generalizing run with
  | nil => exact Nat.le_refl run
  | cons c text ih =>
    rw [longestRun]
    split_ifs
    · exact Nat.le_trans (Nat.le_succ run) (ih _)
    · exact Nat.le_max_left _ _

/-- A text without long runs of apostrophes is read back between triple ones. -/
theorem readMultiLiteral_plain {run : Nat}
    (hplain : ∀ c ∈ text, c ≠ '\n' → isControl c = false)
    (hrun : longestRun apostrophe run text ≤ 2) :
    readMultiLiteral (text ++ apostrophe :: apostrophe :: apostrophe :: '\n' :: rest) =
      some (text, '\n' :: rest) := by
  induction text generalizing run with
  | nil => exact closes_readMultiLiteral.three rest
  | cons c text ih =>
    have hrest : ∀ x ∈ text, x ≠ '\n' → isControl x = false :=
      fun x hx => hplain x (List.mem_cons_of_mem _ hx)
    rw [longestRun] at hrun
    split_ifs at hrun with hc
    · subst c
      have hfree : ∀ tail, text ≠ apostrophe :: apostrophe :: tail := by
        -- two more would make a run of three
        rintro tail rfl
        have hlong := le_longestRun apostrophe (run + 1 + 1 + 1) tail
        simp only [longestRun, if_pos] at hrun
        omega
      rw [List.cons_append, closes_readMultiLiteral.push hfree, ih hrest hrun]
      rfl
    · have hread := ih hrest (Nat.le_trans (Nat.le_max_right _ _) hrun)
      by_cases hbreak : c = '\n'
      · subst c
        rw [List.cons_append, readMultiLiteral, hread]
        rfl
      · have hcontrol := hplain c List.mem_cons_self hbreak
        have hreturn : c ≠ '\r' := by rintro rfl; cases hcontrol
        rw [List.cons_append, readMultiLiteral, hcontrol, hread]
        · rfl
        all_goals grind [apostrophe]

/-! ### Forms -/

/-- A string that starts on its own line loses the line break in front, and others have none. -/
theorem skipNewLine_firstBreak {body : List Char}
    (h : '\n' ∉ text → ∃ x tail, body = x :: tail ∧ isControl x = false) :
    skipNewLine (firstBreak text ++ body) = body := by
  rw [firstBreak]
  split_ifs with hbreak
  · rfl
  · obtain ⟨x, tail, rfl, hx⟩ := h (by simpa using hbreak)
    have hnew : x ≠ '\n' := by rintro rfl; cases hx
    have hreturn : x ≠ '\r' := by rintro rfl; cases hx
    rw [List.nil_append, skipNewLine, newLine?]
    · rfl
    · rintro rest ⟨⟩
      exact hnew rfl
    · rintro rest ⟨⟩
      exact hreturn rfl

theorem head_escapeMulti (hbreak : '\n' ∉ text) (run : Nat) (rest : List Char) :
    ∃ x tail, escapeMulti run text ++ '"' :: rest = x :: tail ∧ isControl x = false := by
  rcases text with - | ⟨c, text⟩
  · exact ⟨'"', rest, rfl, rfl⟩
  · rw [escapeMulti]
    split_ifs with _ _ hnew
    · exact ⟨'"', _, rfl, rfl⟩
    · exact ⟨'\\', _, rfl, rfl⟩
    · exact absurd (hnew ▸ List.mem_cons_self) hbreak
    · obtain ⟨x, tail, hx, -, hcontrol⟩ := head_escape c
      exact ⟨x, _, by rw [hx]; rfl, hcontrol⟩

theorem not_mem_of_longestRun {q : Char} {run : Nat} (h : longestRun q run text = 0) :
    q ∉ text := by
  induction text generalizing run with
  | nil => exact List.not_mem_nil
  | cons c text ih =>
    rw [longestRun] at h
    split_ifs at h with hc
    · have hpos := le_longestRun q (run + 1) text
      omega
    · rw [List.mem_cons]
      rintro (rfl | hmem)
      · exact hc rfl
      · exact ih (Nat.max_eq_zero_iff.mp h).2 hmem

/-- A form without escapes is taken for a text that needs none. -/
theorem Form.of_cases (text : List Char) :
    Form.of text = .basic ∨ Form.of text = .multiBasic ∨
    (Form.of text = .literal ∧ (∀ c ∈ text, isControl c = false) ∧ apostrophe ∉ text) ∨
    (Form.of text = .multiLiteral ∧ (∀ c ∈ text, c ≠ '\n' → isControl c = false) ∧
      longestRun apostrophe 0 text ≤ 2) := by
  have hcoded : (text.any fun c => isControl c && c ≠ '\n') = false →
      ∀ c ∈ text, c ≠ '\n' → isControl c = false := by
    intro h c hc hbreak
    simpa [hbreak] using List.any_eq_false.mp h c hc
  unfold Form.of
  dsimp only
  split_ifs with hbasic hliteral hmultiBasic hmultiLiteral
  · exact .inl rfl
  · simp only [Bool.and_eq_true, Bool.not_eq_true', decide_eq_true_eq] at hliteral
    obtain ⟨⟨hplain, hbroken⟩, hrun⟩ := hliteral
    -- without line breaks no control is left
    refine .inr (.inr (.inl ⟨rfl, fun c hc => hcoded hplain c hc ?_, not_mem_of_longestRun hrun⟩))
    rintro rfl
    simp [hc] at hbroken
  · exact .inr (.inl rfl)
  · simp only [Bool.and_eq_true, Bool.not_eq_true', decide_eq_true_eq] at hmultiLiteral
    exact .inr (.inr (.inr ⟨rfl, hcoded hmultiLiteral.1, hmultiLiteral.2⟩))
  · exact .inr (.inl rfl)
  · exact .inl rfl

theorem read?_quote (h : ∀ tail, text ≠ '"' :: '"' :: tail) :
    read? ('"' :: text) = readBasic text := by
  rw [read?]
  · rfl
  · rintro tail heq
    exact h tail (List.cons.inj heq).2
  · rintro tail ⟨⟩

theorem read?_apostrophe (h : ∀ tail, text ≠ apostrophe :: apostrophe :: tail) :
    read? (apostrophe :: text) = readLiteral text := by
  rw [read?]
  · rfl
  · rintro tail ⟨⟩
  · rintro tail heq
    exact h tail (List.cons.inj heq).2

/-- **What was written is read back**, whatever characters the text has. -/
theorem read?_write (text rest : List Char) :
    read? (write text ++ '\n' :: rest) = some (text, '\n' :: rest) := by
  rw [write]
  rcases Form.of_cases text with hof | hof | ⟨hof, hplain, hquote⟩ | ⟨hof, hplain, hrun⟩
  · have hread : read? (writeAs text .basic ++ '\n' :: rest) =
        readBasic (text.flatMap escape ++ '"' :: '\n' :: rest) := by
      rw [writeAs, List.cons_append, List.append_assoc, List.singleton_append, read?_quote]
      rintro tail heq
      rcases text with - | ⟨c, text⟩
      · cases heq
      · obtain ⟨x, front, hx, hne, -⟩ := head_escape c
        rw [List.flatMap_cons, hx] at heq
        exact hne (List.cons.inj heq).1
    rw [hof, hread, readBasic_escaped]
  · have hread : read? (writeAs text .multiBasic ++ '\n' :: rest) =
        readMultiBasic false (skipNewLine (firstBreak text ++
          (escapeMulti 0 text ++ '"' :: '"' :: '"' :: '\n' :: rest))) := by
      simp [writeAs, read?]
    rw [hof, hread, skipNewLine_firstBreak fun hbreak => head_escapeMulti hbreak 0 _,
      readMultiBasic_escaped]
  · have hread : read? (writeAs text .literal ++ '\n' :: rest) =
        readLiteral (text ++ apostrophe :: '\n' :: rest) := by
      rw [writeAs, List.cons_append, List.append_assoc, List.singleton_append, read?_apostrophe]
      rintro tail heq
      rcases text with - | ⟨c, text⟩
      · cases heq
      · -- the text has no apostrophe
        exact hquote ((List.cons.inj heq).1 ▸ List.mem_cons_self)
    rw [hof, hread, readLiteral_plain hplain hquote]
  · have hread : read? (writeAs text .multiLiteral ++ '\n' :: rest) =
        readMultiLiteral (skipNewLine (firstBreak text ++
          (text ++ apostrophe :: apostrophe :: apostrophe :: '\n' :: rest))) := by
      simp [writeAs, read?, apostrophe, List.replicate]
    rw [hof, hread, skipNewLine_firstBreak, readMultiLiteral_plain hplain hrun]
    intro hbreak
    rcases text with - | ⟨c, text⟩
    · exact ⟨apostrophe, _, rfl, rfl⟩
    · refine ⟨c, _, rfl, hplain c List.mem_cons_self ?_⟩
      rintro rfl
      exact hbreak List.mem_cons_self

end DynamicQuorum.Toml.Quoted
