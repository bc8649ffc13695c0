/-
  DynamicQuorum/Proofs/Toml/Page.lean
  ===================================
  **A page that was written is read back.**

  Each line of a page is one statement, whatever stands behind it.  So the text of a page has
  one statement for each entry and each header, and a reader never looks into the next line.  Put
  together again, the entries in front stand in the document itself, and those behind a header in
  the table that it opened last.
-/
import DynamicQuorum.Toml.Page
import DynamicQuorum.Proofs.Toml.Entries
import DynamicQuorum.Proofs.Toml.Quoted
import DynamicQuorum.Proofs.Toml.Word

namespace DynamicQuorum.Toml

variable {rest : List Char}

/-! ### Scalars -/

def Scalar.Fits : Scalar → Prop
  | .natural value => value < Word.integerLimit
  | _ => True

instance : (scalar : Scalar) → Decidable scalar.Fits
  | .string _ => inferInstanceAs (Decidable True)
  | .natural value => inferInstanceAs (Decidable (value < Word.integerLimit))
  | .boolean _ => inferInstanceAs (Decidable True)

/-- A written scalar starts with a character that opens no container and is no blank. -/
theorem Scalar.head_render (scalar : Scalar) :
    ∃ c tail, scalar.render = c :: tail ∧ c ≠ '[' ∧ c ≠ '\x7b' ∧ Quoted.isBlank c = false := by
  cases scalar with
  | string text =>
    rw [render, Quoted.write]
    cases Quoted.Form.of text.toList with
    | basic => exact ⟨'"', _, rfl, by decide⟩
    | literal => exact ⟨Quoted.apostrophe, _, rfl, by decide⟩
    | multiBasic => exact ⟨'"', _, rfl, by decide⟩
    | multiLiteral => exact ⟨Quoted.apostrophe, _, rfl, by decide⟩
  | natural value =>
    rw [render]
    cases hdigits : Nat.toDigits 10 value with
    | nil => exact absurd hdigits Nat.toDigits_ne_nil
    | cons c digits =>
      have hc : c.isDigit = true :=
        Text.isDigit_of_mem_toDigits (hdigits ▸ List.mem_cons_self)
      refine ⟨c, digits, rfl, Word.ne_of_class hc rfl, Word.ne_of_class hc rfl, ?_⟩
      simp [Quoted.isBlank, Word.ne_of_class hc (d := ' ') rfl,
        Word.ne_of_class hc (d := '\t') rfl]
  | boolean value =>
    cases value with
    | true => exact ⟨'t', _, rfl, by decide⟩
    | false => exact ⟨'f', _, rfl, by decide⟩

/-- What can be read as a string is read as one. -/
theorem readScalar?_quoted {text read : List Char} (h : Quoted.read? text = some (read, rest)) :
    readScalar? text = some (.string (String.ofList read), rest) := by
  unfold readScalar?
  split
  · rw [h]
    rfl
  · rw [h]
    rfl
  · rename_i hbasic hliteral
    unfold Quoted.read? at h
    split at h
    · exact absurd rfl (hbasic _)
    · exact absurd rfl (hliteral _)
    · unfold Quoted.readLine? at h
      split at h
      · exact absurd rfl (hbasic _)
      · exact absurd rfl (hliteral _)
      · cases h

theorem readScalar?_word {c : Char} {text : List Char} (h : Word.isWordChar c = true) :
    readScalar? (c :: text) = Word.read? (c :: text) := by
  rw [readScalar?]
  · rintro rest ⟨⟩
    cases h
  · rintro rest ⟨⟩
    cases h

theorem Scalar.readScalar?_render {scalar : Scalar} (h : scalar.Fits) (rest : List Char) :
    readScalar? (scalar.render ++ '\n' :: rest) = some (scalar.toValue, '\n' :: rest) := by
  cases scalar with
  | string text =>
    rw [render, readScalar?_quoted (Quoted.read?_write text.toList rest), String.ofList_toList]
    rfl
  | natural value =>
    have hread := Word.read?_toDigits h rest
    rw [render]
    cases hdigits : Nat.toDigits 10 value with
    | nil => exact absurd hdigits Nat.toDigits_ne_nil
    | cons c digits =>
      have hc : c.isDigit = true :=
        Text.isDigit_of_mem_toDigits (hdigits ▸ List.mem_cons_self)
      rw [hdigits] at hread
      refine (readScalar?_word ?_).trans hread
      simp [Word.isWordChar, Char.isAlphanum, hc]
  | boolean value =>
    have htrue : ∀ c ∈ ['t', 'r', 'u', 'e'], Word.isWordChar c = true := List.all_eq_true.mp rfl
    have hfalse : ∀ c ∈ ['f', 'a', 'l', 's', 'e'], Word.isWordChar c = true :=
      List.all_eq_true.mp rfl
    cases value with
    | true => exact (readScalar?_word rfl).trans (Word.read?_word htrue)
    | false => exact (readScalar?_word rfl).trans (Word.read?_word hfalse)

/-- A written scalar is read back at any depth, since it is no container. -/
theorem Scalar.readValue?_render {scalar : Scalar} (h : scalar.Fits) (depth : Nat)
    (rest : List Char) :
    readValue? depth (scalar.render ++ '\n' :: rest) = some (scalar.toValue, '\n' :: rest) := by
  cases depth with
  | zero => exact readScalar?_render h rest
  | succ depth =>
    refine Eq.trans ?_ (readScalar?_render h rest)
    obtain ⟨c, tail, hrender, hbracket, hbrace, -⟩ := scalar.head_render
    rw [hrender]
    simp only [readValue?, List.cons_append]
    split
    next heq => exact absurd (List.cons.inj heq).1 hbracket
    next heq => exact absurd (List.cons.inj heq).1 hbrace
    next => rfl

/-! ### Lines -/

structure IsBare (key : String) : Prop where
  ne : key.toList ≠ []
  chars : ∀ c ∈ key.toList, isBareKeyChar c = true

theorem isBare_iff {key : String} :
    IsBare key ↔ key.toList ≠ [] ∧ key.toList.all isBareKeyChar = true := by
  rw [List.all_eq_true]
  exact ⟨fun ⟨hne, hchars⟩ => ⟨hne, hchars⟩, fun ⟨hne, hchars⟩ => ⟨hne, hchars⟩⟩

instance (key : String) : Decidable (IsBare key) := decidable_of_iff _ isBare_iff.symm

/-- The first character of a key is none that a document uses otherwise. -/
theorem IsBare.head {key : String} (h : IsBare key) :
    ∃ c tail, key.toList = c :: tail ∧ isBareKeyChar c = true := by
  obtain ⟨hne, hchars⟩ := h
  cases hkey : key.toList with
  | nil => exact absurd hkey hne
  | cons c tail => exact ⟨c, tail, rfl, hchars c (hkey ▸ List.mem_cons_self)⟩

theorem skipBlanks_cons {c : Char} {text : List Char} (h : Quoted.isBlank c = false) :
    skipBlanks (c :: text) = c :: text :=
  List.dropWhile_cons_of_neg (by simp [h])

theorem IsBare.readKeyPath? {key : String} (h : IsBare key) (parts : Nat) (rest : List Char)
    (hrest : ∀ c ∈ rest.head?, isBareKeyChar c = false)
    (hdot : ∀ tail, skipBlanks rest ≠ '.' :: tail) :
    Toml.readKeyPath? (parts + 1) (key.toList ++ rest) = some (⟨[], key⟩, skipBlanks rest) := by
  obtain ⟨c, tail, hkey, hc⟩ := h.head
  have hblank : Quoted.isBlank c = false := by
    simp [Quoted.isBlank, Word.ne_of_class hc (d := ' ') rfl,
      Word.ne_of_class hc (d := '\t') rfl]
  -- the key is no string, and ends where its characters do
  have hline : Quoted.readLine? (key.toList ++ rest) = none := by
    rw [hkey, List.cons_append, Quoted.readLine?]
    · rintro text ⟨⟩
      exact Word.ne_of_class hc rfl rfl
    · rintro text ⟨⟩
      exact Word.ne_of_class hc rfl rfl
  have htake : (key.toList ++ rest).takeWhile isBareKeyChar = key.toList := by
    rw [List.takeWhile_append_of_pos h.chars]
    cases rest with
    | nil => simp
    | cons d rest => rw [List.takeWhile_cons_of_neg (by simp [hrest d rfl]), List.append_nil]
  have hdrop : (key.toList ++ rest).dropWhile isBareKeyChar = rest := by
    rw [List.dropWhile_append_of_pos h.chars]
    cases rest with
    | nil => rfl
    | cons d rest => rw [List.dropWhile_cons_of_neg (by simp [hrest d rfl])]
  have hread : readKey? (key.toList ++ rest) = some (key, rest) := by
    rw [readKey?, hline]
    simp [htake, hdrop, h.ne]
  have hskip : skipBlanks (key.toList ++ rest) = key.toList ++ rest := by
    rw [hkey]
    exact skipBlanks_cons hblank
  rw [Toml.readKeyPath?, hskip, hread]
  simp only [Option.bind_eq_bind, Option.bind_some]
  rfl

def statementOf (entry : String × Scalar) : Statement := .entry ⟨[], entry.1⟩ entry.2.toValue

/-- A written entry is read as one, whatever follows it. -/
theorem readStatement?_renderEntry {entry : String × Scalar} (hkey : IsBare entry.1)
    (hfits : entry.2.Fits) (rest : List Char) :
    readStatement? (Page.renderEntry entry ++ rest) = some (statementOf entry, rest) := by
  have htext : Page.renderEntry entry ++ rest =
      entry.1.toList ++ (' ' :: '=' :: ' ' :: (entry.2.render ++ '\n' :: rest)) := by
    simp [Page.renderEntry]
  have hpath := hkey.readKeyPath? 78 (' ' :: '=' :: ' ' :: (entry.2.render ++ '\n' :: rest))
    (by rintro c ⟨⟩; rfl) (by rintro tail ⟨⟩)
  have hvalue : readValue? depthLimit (skipBlanks (' ' :: (entry.2.render ++ '\n' :: rest))) =
      some (entry.2.toValue, '\n' :: rest) := by
    obtain ⟨c, tail, hrender, -, -, hblank⟩ := entry.2.head_render
    have hskip : skipBlanks (' ' :: (entry.2.render ++ '\n' :: rest)) =
        entry.2.render ++ '\n' :: rest := by
      rw [hrender]
      exact skipBlanks_cons hblank
    rw [hskip, Scalar.readValue?_render hfits]
  have hentry : readEntry? (readValue? depthLimit) (Page.renderEntry entry ++ rest) =
      some ((⟨[], entry.1⟩, entry.2.toValue), '\n' :: rest) := by
    unfold readEntry?
    rw [htext]
    refine Option.bind_eq_some_iff.mpr ⟨_, hpath, ?_⟩
    exact Option.bind_eq_some_iff.mpr ⟨_, hvalue, rfl⟩
  obtain ⟨c, tail, hhead, hc⟩ := hkey.head
  -- a key does not look like a header
  have hne : ∀ tail, Page.renderEntry entry ++ rest ≠ '[' :: tail := by
    intro tail heq
    rw [htext, hhead] at heq
    exact Word.ne_of_class hc rfl (List.cons.inj heq).1
  rw [readStatement?]
  · exact Option.bind_eq_some_iff.mpr ⟨_, hentry, rfl⟩
  · exact fun tail => hne ('[' :: tail)
  · exact hne

theorem readStatement?_header {key : String} (h : IsBare key) (rest : List Char) :
    readStatement? ('[' :: (key.toList ++ ']' :: '\n' :: rest)) =
      some (.tableHeader ⟨[], key⟩, rest) := by
  have hpath := h.readKeyPath? 78 (']' :: '\n' :: rest)
    (by rintro c ⟨⟩; rfl) (by rintro tail ⟨⟩)
  obtain ⟨c, tail, hhead, hc⟩ := h.head
  rw [readStatement?]
  · exact Option.bind_eq_some_iff.mpr ⟨_, hpath, rfl⟩
  · intro tail heq
    rw [hhead] at heq
    exact Word.ne_of_class hc rfl (List.cons.inj heq).1

/-! ### Texts and their lines -/

/-- The text has these lines, however many more there might be. -/
def Reads (text : List Char) (lines : List Statement) : Prop :=
  ∀ count, text.length < count → readStatements? count text = some lines

theorem Reads.nil : Reads [] [] := by
  intro count hcount
  cases count with
  | zero => cases hcount
  | succ count => rfl

theorem Reads.newLine {text : List Char} {lines : List Statement} (h : Reads text lines) :
    Reads ('\n' :: text) lines := by
  intro count hcount
  have hread := h count (Nat.lt_of_succ_lt hcount)
  cases count with
  | zero => cases hcount
  | succ count =>
    rw [readStatements?] at hread ⊢
    rwa [skipSpace]

theorem Reads.cons {c : Char} {text : List Char} {line : Statement} {lines : List Statement}
    (hc : isBareKeyChar c = true ∨ c = '[')
    (hline : readStatement? (c :: text) = some (line, rest)) (hlength : rest.length ≤ text.length)
    (h : Reads rest lines) : Reads (c :: text) (line :: lines) := by
  intro count hcount
  have hskip : skipSpace false (c :: text) = c :: text := by
    have hne : ∀ d, isBareKeyChar d = false → d ≠ '[' → c ≠ d := by
      rintro d hd hbracket rfl
      rcases hc with hc | hc
      · exact Word.ne_of_class hc hd rfl
      · exact hbracket hc
    rw [skipSpace]
    · simp [Quoted.isBlank, hne ' ' rfl, hne '\t' rfl, hne '#' rfl]
    · exact hne '\n' rfl (by decide)
    · rintro tail rfl
      exact absurd rfl (hne '\r' rfl (by decide))
  cases count with
  | zero => cases hcount
  | succ count =>
    rw [readStatements?, hskip]
    have hrest := h count (by simp only [List.length_cons] at hcount; omega)
    exact Option.bind_eq_some_iff.mpr ⟨_, hline, Option.bind_eq_some_iff.mpr ⟨_, hrest, rfl⟩⟩

namespace Page

/-- Written entries are read one after another. -/
theorem reads_entries {entries : List (String × Scalar)} {lines : List Statement}
    (hentries : ∀ entry ∈ entries, IsBare entry.1 ∧ entry.2.Fits) (h : Reads rest lines) :
    Reads (entries.flatMap renderEntry ++ rest) (entries.map statementOf ++ lines) := by
  induction entries with
  | nil => exact h
  | cons entry entries ih =>
    obtain ⟨⟨hkey, hfits⟩, hmore⟩ := List.forall_mem_cons.mp hentries
    obtain ⟨c, tail, hhead, hc⟩ := hkey.head
    rw [List.flatMap_cons, List.append_assoc, List.map_cons, List.cons_append]
    have hline := readStatement?_renderEntry hkey hfits (entries.flatMap renderEntry ++ rest)
    have htext : renderEntry entry =
        c :: (tail ++ ' ' :: '=' :: ' ' :: (entry.2.render ++ ['\n'])) := by
      simp [renderEntry, hhead]
    rw [htext, List.cons_append] at hline ⊢
    refine Reads.cons (.inl hc) hline ?_ (ih hmore)
    simp only [List.length_append]
    omega

/-- So are tables, each a header with its entries. -/
theorem reads_tables {tables : List (String × List (String × Scalar))}
    (htables : ∀ table ∈ tables, IsBare table.1 ∧
      ∀ entry ∈ table.2, IsBare entry.1 ∧ entry.2.Fits) :
    Reads (tables.flatMap renderTable)
      (tables.flatMap fun table => .tableHeader ⟨[], table.1⟩ :: table.2.map statementOf) := by
  induction tables with
  | nil => exact .nil
  | cons table tables ih =>
    obtain ⟨⟨hkey, hentries⟩, hmore⟩ := List.forall_mem_cons.mp htables
    have hrest := reads_entries hentries (ih hmore)
    have hline := readStatement?_header hkey
      (table.2.flatMap renderEntry ++ tables.flatMap renderTable)
    have htext : (table :: tables).flatMap renderTable = '\n' :: '[' :: (table.1.toList ++
        ']' :: '\n' :: (table.2.flatMap renderEntry ++ tables.flatMap renderTable)) := by
      simp [renderTable]
    rw [htext]
    refine (Reads.cons (.inr rfl) hline ?_ hrest).newLine
    simp only [List.length_append, List.length_cons]
    omega

/-- The page can be read: its keys need no quotes, none occurs twice, and its numbers fit. -/
structure IsPlain (page : Page) : Prop where
  nodup : (page.entries.map (·.1) ++ page.tables.map (·.1)).Nodup
  entries : ∀ entry ∈ page.entries, IsBare entry.1 ∧ entry.2.Fits
  tables : ∀ table ∈ page.tables, IsBare table.1 ∧ ∀ entry ∈ table.2, IsBare entry.1 ∧ entry.2.Fits
  inner : ∀ table ∈ page.tables, (table.2.map (·.1)).Nodup

instance (page : Page) : Decidable page.IsPlain :=
  decidable_of_iff
    ((page.entries.map (·.1) ++ page.tables.map (·.1)).Nodup ∧
      (∀ entry ∈ page.entries, IsBare entry.1 ∧ entry.2.Fits) ∧
      (∀ table ∈ page.tables, IsBare table.1 ∧ ∀ entry ∈ table.2, IsBare entry.1 ∧ entry.2.Fits) ∧
      ∀ table ∈ page.tables, (table.2.map (·.1)).Nodup)
    ⟨fun ⟨hnodup, hentries, htables, hinner⟩ => ⟨hnodup, hentries, htables, hinner⟩,
      fun ⟨hnodup, hentries, htables, hinner⟩ => ⟨hnodup, hentries, htables, hinner⟩⟩

variable {page : Page}

theorem IsPlain.skipMark_render (h : page.IsPlain) : skipMark page.render = page.render := by
  rw [skipMark]
  intro text heq
  rw [render] at heq
  cases hentries : page.entries with
  | nil =>
    rw [hentries] at heq
    cases htables : page.tables with
    | nil =>
      rw [htables] at heq
      cases heq
    | cons table tables =>
      rw [htables] at heq
      cases (List.cons.inj heq).1
  | cons entry entries =>
    have hkey := (h.entries entry (hentries ▸ List.mem_cons_self)).1
    obtain ⟨c, tail, hhead, hc⟩ := hkey.head
    rw [hentries, List.flatMap_cons, renderEntry, hhead] at heq
    exact Word.ne_of_class hc (d := '\ufeff') rfl (List.cons.inj heq).1

/-! ### Putting a page together -/

theorem keys_values (entries : List (String × Scalar)) :
    (values entries).keys = entries.map (·.1) := List.map_map

/-- Entries of their own keys go, one after another, into a place of the document that takes each of
    them. -/
theorem foldlM_entries {wrap : Entries → Entries} {current : List String}
    (hadd : ∀ (inner : Entries) (entry : String × Scalar), inner.find? entry.1 = none →
      Assembly.add ⟨wrap inner, current⟩ (statementOf entry) =
        some ⟨wrap (inner ++ [(entry.1, entry.2.toValue)]), current⟩)
    (inner : Entries) {entries : List (String × Scalar)}
    (h : (inner.keys ++ entries.map (·.1)).Nodup) :
    (entries.map statementOf).foldlM Assembly.add ⟨wrap inner, current⟩ =
      some ⟨wrap (inner ++ values entries), current⟩ := by
  induction entries generalizing inner with
  | nil => simp [values]
  | cons entry entries ih =>
    have hfresh : inner.find? entry.1 = none := Entries.find?_eq_none_of_nodup h
    rw [List.map_cons, List.foldlM_cons, hadd inner entry hfresh]
    refine (ih _ ?_).trans ?_
    · simpa [Entries.keys] using h
    · simp [values]

/-- In front of all headers, entries stand in the document itself. -/
theorem add_root (root : Entries) (entry : String × Scalar) (h : root.find? entry.1 = none) :
    Assembly.add ⟨root, []⟩ (statementOf entry) =
      some ⟨root ++ [(entry.1, entry.2.toValue)], []⟩ := by
  simp [statementOf, Assembly.add, Entries.changeAt, Entries.insert, h]

/-- Behind a header, entries stand in the table that it opened. -/
theorem add_table {root : Entries} {name : String} (hname : root.find? name = none)
    (inner : Entries) (entry : String × Scalar) (h : inner.find? entry.1 = none) :
    Assembly.add ⟨root ++ [(name, .table .header inner)], [name]⟩ (statementOf entry) =
      some ⟨root ++ [(name, .table .header (inner ++ [(entry.1, entry.2.toValue)]))], [name]⟩ := by
  simp [statementOf, Assembly.add, Entries.changeAt, Entries.insert, Entries.find?_snoc hname, h,
    Entries.replace_snoc hname]

/-- Tables with fresh names are put behind the entries, each with what its own lines hold. -/
theorem foldlM_tables (root : Entries) {tables : List (String × List (String × Scalar))}
    (h : (root.keys ++ tables.map (·.1)).Nodup)
    (hinner : ∀ table ∈ tables, (table.2.map (·.1)).Nodup) (current : List String) :
    ∃ last, (tables.flatMap fun table =>
        .tableHeader ⟨[], table.1⟩ :: table.2.map statementOf).foldlM Assembly.add ⟨root, current⟩ =
      some ⟨root ++ tables.map (fun table => (table.1, .table .header (values table.2))),
        last⟩ := by
  induction tables generalizing root current with
  | nil => exact ⟨current, by simp⟩
  | cons table tables ih =>
    obtain ⟨htable, hmore⟩ := List.forall_mem_cons.mp hinner
    have hfresh : root.find? table.1 = none := Entries.find?_eq_none_of_nodup h
    have hadd : Assembly.add ⟨root, current⟩ (.tableHeader ⟨[], table.1⟩) =
        some ⟨root ++ [(table.1, .table .header [])], [table.1]⟩ := by
      simp [Assembly.add, Entries.changeAt, Entries.openTable, hfresh]
    have hfill := foldlM_entries (add_table hfresh) [] htable
    obtain ⟨last, hlast⟩ := ih (root ++ [(table.1, .table .header (values table.2))])
      (by simpa [Entries.keys] using h) hmore [table.1]
    refine ⟨last, ?_⟩
    rw [List.flatMap_cons, List.cons_append, List.foldlM_cons, hadd]
    simp only [Option.bind_eq_bind, Option.bind_some, List.foldlM_append]
    rw [hfill]
    simpa using hlast

/-- **A page is read back**, with the values in the order in which they were written. -/
theorem readDocument?_toText (h : page.IsPlain) :
    readDocument? page.toText = some page.toEntries := by
  have hreads := reads_entries h.entries (reads_tables h.tables)
  obtain ⟨last, hlast⟩ := foldlM_tables (values page.entries)
    (by rw [keys_values]; exact h.nodup) h.inner []
  have hroot := foldlM_entries add_root [] (List.nodup_append.mp h.nodup).1
  rw [readDocument?, toText, String.toList_ofList, h.skipMark_render]
  refine Option.bind_eq_some_iff.mpr ⟨_, hreads _ (Nat.lt_succ_self _), ?_⟩
  rw [Entries.ofStatements, List.foldlM_append]
  refine Option.map_eq_some_iff.mpr ⟨⟨page.toEntries, last⟩, ?_, rfl⟩
  exact Option.bind_eq_some_iff.mpr ⟨_, hroot, hlast⟩

end Page

end DynamicQuorum.Toml
