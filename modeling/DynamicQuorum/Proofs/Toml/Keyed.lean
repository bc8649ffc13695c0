/-
  DynamicQuorum/Proofs/Toml/Keyed.lean
  ====================================
  **No table of a document has a key twice.**

  Entries come into a table in three ways: as members of an inline table, as lines under a header,
  and by headers of their own.  Each of them looks first whether the key is there, in the
  table at the end of a path; the tables on the way get another value under a key that they
  have.  So keys stay apart at every depth, and a lookup finds the only value under a key.
-/
import DynamicQuorum.Toml.Document
import DynamicQuorum.Proofs.Toml.Entries

namespace DynamicQuorum.Toml

/-! ### No key twice -/

/-- No table in the value has a key twice. -/
inductive Value.IsKeyed : Value → Prop where
  | string (text : String) : IsKeyed (.string text)
  | integer (value : Int) : IsKeyed (.integer value)
  | boolean (value : Bool) : IsKeyed (.boolean value)
  | float (text : String) : IsKeyed (.float text)
  | date (text : String) : IsKeyed (.date text)
  | array {items : List Value} (hitems : ∀ v ∈ items, IsKeyed v) : IsKeyed (.array items)
  | table {origin : Origin} {entries : Entries} (hkeys : entries.keys.Nodup)
      (hinner : ∀ entry ∈ entries, IsKeyed entry.2) : IsKeyed (.table origin entries)
  | tables {elements : List Entries} (hkeys : ∀ entries ∈ elements, entries.keys.Nodup)
      (hinner : ∀ entries ∈ elements, ∀ entry ∈ entries, IsKeyed entry.2) :
      IsKeyed (.tables elements)

structure Entries.IsKeyed (entries : Entries) : Prop where
  nodup : entries.keys.Nodup
  inner : ∀ entry ∈ entries, entry.2.IsKeyed

theorem Value.isKeyed_table {origin : Origin} {entries : Entries} :
    (Value.table origin entries).IsKeyed ↔ entries.IsKeyed := by
  constructor
  · rintro (- | - | - | - | - | - | ⟨hkeys, hinner⟩)
    exact ⟨hkeys, hinner⟩
  · rintro ⟨hkeys, hinner⟩
    exact .table hkeys hinner

theorem Value.isKeyed_tables {elements : List Entries} :
    (Value.tables elements).IsKeyed ↔ ∀ entries ∈ elements, entries.IsKeyed := by
  constructor
  · rintro (- | - | - | - | - | - | - | ⟨hkeys, hinner⟩) entries hmem
    exact ⟨hkeys entries hmem, hinner entries hmem⟩
  · intro h
    exact .tables (fun entries hmem => (h entries hmem).nodup) fun entries hmem =>
      (h entries hmem).inner

namespace Entries.IsKeyed

variable {entries result : Entries} {key : String} {v : Value}

theorem nil : IsKeyed [] := ⟨List.nodup_nil, nofun⟩

theorem find? (h : entries.IsKeyed) (hfind : entries.find? key = some v) : v.IsKeyed :=
  h.inner _ (mem_of_find?_eq_some hfind)

/-- A fresh key may be added behind the others. -/
theorem append (h : entries.IsKeyed) (hfresh : entries.find? key = none) (hv : v.IsKeyed) :
    IsKeyed (entries ++ [(key, v)]) where
  nodup := by
    rw [keys_append]
    refine h.nodup.append (List.nodup_singleton key) ?_
    intro name hname hkey
    obtain rfl := List.mem_singleton.mp hkey
    exact find?_eq_none.mp hfresh hname
  inner := by
    intro entry hentry
    rcases List.mem_append.mp hentry with hold | hnew
    · exact h.inner entry hold
    · obtain rfl := List.mem_singleton.mp hnew
      exact hv

theorem replace (h : entries.IsKeyed) (hv : v.IsKeyed) : (entries.replace key v).IsKeyed where
  nodup := by rw [keys_replace]; exact h.nodup
  inner := by
    intro entry hentry
    obtain ⟨old, hold, rfl⟩ := List.mem_map.mp hentry
    split_ifs
    · exact hv
    · exact h.inner old hold

theorem filter (h : entries.IsKeyed) (p : String × Value → Bool) :
    IsKeyed (entries.filter p) where
  nodup := h.nodup.sublist (List.filter_sublist.map _)
  inner entry hentry := h.inner entry (List.mem_filter.mp hentry).1

/-- A change that keeps keys apart in the table at the end of a path keeps them apart everywhere. -/
theorem changeAt {making : Origin} {change : Origin → Entries → Option Entries}
    (hchange : ∀ origin inner changed, inner.IsKeyed → change origin inner = some changed →
      changed.IsKeyed)
    {path : List String} {origin : Origin} (h : entries.IsKeyed)
    (hresult : entries.changeAt making change path origin = some result) : result.IsKeyed := by
  induction path generalizing entries result origin with
  | nil => exact hchange origin entries result h hresult
  | cons key path ih =>
    rw [Entries.changeAt] at hresult
    split at hresult
    next hfresh =>
      obtain ⟨inner, hinner, ⟨⟩⟩ := Option.bind_eq_some_iff.mp hresult
      exact h.append hfresh (Value.isKeyed_table.mpr (ih nil hinner))
    next origin' old hfound =>
      split at hresult
      · cases hresult
      · obtain ⟨inner, hinner, ⟨⟩⟩ := Option.bind_eq_some_iff.mp hresult
        have hold := Value.isKeyed_table.mp (h.find? hfound)
        exact h.replace (Value.isKeyed_table.mpr (ih hold hinner))
    next elements hfound =>
      split at hresult
      · cases hresult
      next last hlast =>
        obtain ⟨inner, hinner, ⟨⟩⟩ := Option.bind_eq_some_iff.mp hresult
        have hold := Value.isKeyed_tables.mp (h.find? hfound)
        have hlast := hold last (List.mem_of_getLast? hlast)
        refine h.replace (Value.isKeyed_tables.mpr fun element helement => ?_)
        rcases List.mem_append.mp helement with hfront | hback
        · exact hold element (List.dropLast_subset elements hfront)
        · obtain rfl := List.mem_singleton.mp hback
          exact ih hlast hinner
    next => cases hresult

theorem insert {path : List String} (h : entries.IsKeyed) (hv : v.IsKeyed)
    (hresult : entries.insert path key v = some result) : result.IsKeyed := by
  refine changeAt ?_ h hresult
  intro origin inner changed hinner hchanged
  split_ifs at hchanged with _ htaken
  cases hchanged
  exact hinner.append (by simpa using htaken) hv

theorem foldlM_insert {members : List (KeyPath × Value)} (h : entries.IsKeyed)
    (hmembers : ∀ member ∈ members, member.2.IsKeyed)
    (hresult : members.foldlM (fun (entries : Entries) member =>
      entries.insert member.1.path member.1.key member.2) entries = some result) :
    result.IsKeyed := by
  induction members generalizing entries with
  | nil =>
    cases hresult
    exact h
  | cons member members ih =>
    obtain ⟨hmember, hrest⟩ := List.forall_mem_cons.mp hmembers
    rw [List.foldlM_cons] at hresult
    obtain ⟨next, hinsert, hresult⟩ := Option.bind_eq_some_iff.mp hresult
    exact ih (h.insert hmember hinsert) hrest hresult

theorem openTable (h : entries.IsKeyed) (hresult : entries.openTable key = some result) :
    result.IsKeyed := by
  unfold Entries.openTable at hresult
  split at hresult
  next hfresh =>
    cases hresult
    exact h.append hfresh (Value.isKeyed_table.mpr nil)
  next inner hfound =>
    cases hresult
    have hinner := Value.isKeyed_table.mp (h.find? hfound)
    -- the table moves behind the others, so its old place has to be gone
    refine (h.filter _).append ?_ (Value.isKeyed_table.mpr hinner)
    rw [find?_eq_none]
    simp [keys]
  next => cases hresult

theorem openElement (h : entries.IsKeyed) (hresult : entries.openElement key = some result) :
    result.IsKeyed := by
  unfold Entries.openElement at hresult
  split at hresult
  next hfresh =>
    cases hresult
    refine h.append hfresh (Value.isKeyed_tables.mpr fun element helement => ?_)
    obtain rfl := List.mem_singleton.mp helement
    exact nil
  next elements hfound =>
    cases hresult
    have hold := Value.isKeyed_tables.mp (h.find? hfound)
    refine h.replace (Value.isKeyed_tables.mpr fun element helement => ?_)
    rcases List.mem_append.mp helement with hfront | hback
    · exact hold element hfront
    · obtain rfl := List.mem_singleton.mp hback
      exact nil
  next => cases hresult

end Entries.IsKeyed

/-! ### Documents -/

def Statement.IsKeyed : Statement → Prop
  | .entry _ value => value.IsKeyed
  | _ => True

theorem Assembly.isKeyed_add {a b : Assembly} {line : Statement} (h : a.root.IsKeyed)
    (hline : line.IsKeyed) (hadd : a.add line = some b) : b.root.IsKeyed := by
  cases line with
  | entry key value =>
    obtain ⟨root, hroot, ⟨⟩⟩ := Option.bind_eq_some_iff.mp hadd
    exact h.changeAt (fun _ _ _ hinner => hinner.insert hline) hroot
  | tableHeader key =>
    obtain ⟨root, hroot, ⟨⟩⟩ := Option.bind_eq_some_iff.mp hadd
    exact h.changeAt (fun _ _ _ hinner => hinner.openTable) hroot
  | elementHeader key =>
    obtain ⟨root, hroot, ⟨⟩⟩ := Option.bind_eq_some_iff.mp hadd
    exact h.changeAt (fun _ _ _ hinner => hinner.openElement) hroot

theorem Assembly.isKeyed_foldlM {lines : List Statement} {a b : Assembly} (h : a.root.IsKeyed)
    (hlines : ∀ line ∈ lines, line.IsKeyed) (hfold : lines.foldlM Assembly.add a = some b) :
    b.root.IsKeyed := by
  induction lines generalizing a with
  | nil =>
    cases hfold
    exact h
  | cons line lines ih =>
    obtain ⟨hline, hrest⟩ := List.forall_mem_cons.mp hlines
    rw [List.foldlM_cons] at hfold
    obtain ⟨next, hadd, hfold⟩ := Option.bind_eq_some_iff.mp hfold
    exact ih (isKeyed_add h hline hadd) hrest hfold

/-! ### Readers -/

def Reader.IsKeyed (read : Reader) : Prop :=
  ∀ text value rest, read text = some (value, rest) → value.IsKeyed

theorem Word.isKeyed_read? : Reader.IsKeyed Word.read? := by
  intro text value rest h
  obtain ⟨v, hclassify, ⟨⟩⟩ := Option.map_eq_some_iff.mp h
  unfold classify at hclassify
  split_ifs at hclassify
  · cases hclassify
    exact .boolean _
  · cases hclassify
    exact .boolean _
  · cases hclassify
    exact .date _
  · cases hclassify
    exact .float _
  · obtain ⟨n, -, rfl⟩ := Option.map_eq_some_iff.mp hclassify
    exact .integer n

theorem isKeyed_readScalar? : Reader.IsKeyed readScalar? := by
  intro text value rest h
  unfold readScalar? at h
  split at h
  · obtain ⟨read, -, ⟨⟩⟩ := Option.map_eq_some_iff.mp h
    exact .string _
  · obtain ⟨read, -, ⟨⟩⟩ := Option.map_eq_some_iff.mp h
    exact .string _
  · exact Word.isKeyed_read? _ _ _ h

variable {item : Reader}

theorem isKeyed_readItems? (hitem : item.IsKeyed) {count : Nat} {text rest : List Char}
    {values : List Value} (h : readItems? item count text = some (values, rest)) :
    ∀ v ∈ values, v.IsKeyed := by
  induction count generalizing text values rest with
  | zero => cases h
  | succ count ih =>
    rw [readItems?] at h
    split at h
    · cases h
      exact nofun
    · obtain ⟨⟨value, behind⟩, hvalue, h⟩ := Option.bind_eq_some_iff.mp h
      dsimp only at h
      split at h
      · obtain ⟨⟨more, behind'⟩, hmore, ⟨⟩⟩ := Option.bind_eq_some_iff.mp h
        exact List.forall_mem_cons.mpr ⟨hitem _ _ _ hvalue, ih hmore⟩
      · cases h
        exact List.forall_mem_cons.mpr ⟨hitem _ _ _ hvalue, nofun⟩
      · cases h

theorem isKeyed_of_entry (hitem : item.IsKeyed) {text rest : List Char} {entry : KeyPath × Value}
    (h : readEntry? item text = some (entry, rest)) : entry.2.IsKeyed := by
  obtain ⟨⟨key, behind⟩, -, h⟩ := Option.bind_eq_some_iff.mp h
  dsimp only at h
  split at h
  · obtain ⟨⟨value, behind'⟩, hvalue, ⟨⟩⟩ := Option.bind_eq_some_iff.mp h
    exact hitem _ _ _ hvalue
  · cases h

theorem isKeyed_readMembers? (hitem : item.IsKeyed) {count : Nat} {text rest : List Char}
    {members : List (KeyPath × Value)} (h : readMembers? item count text = some (members, rest)) :
    ∀ member ∈ members, member.2.IsKeyed := by
  induction count generalizing text members rest with
  | zero => cases h
  | succ count ih =>
    obtain ⟨⟨entry, behind⟩, hentry, h⟩ := Option.bind_eq_some_iff.mp h
    dsimp only at h
    split at h
    · obtain ⟨⟨more, behind'⟩, hmore, ⟨⟩⟩ := Option.bind_eq_some_iff.mp h
      exact List.forall_mem_cons.mpr ⟨isKeyed_of_entry hitem hentry, ih hmore⟩
    · cases h
      exact List.forall_mem_cons.mpr ⟨isKeyed_of_entry hitem hentry, nofun⟩
    · cases h

theorem isKeyed_inlineTable? {members : List (KeyPath × Value)} {table : Value}
    (hmembers : ∀ member ∈ members, member.2.IsKeyed) (h : inlineTable? members = some table) :
    table.IsKeyed := by
  obtain ⟨entries, hfold, ⟨⟩⟩ := Option.bind_eq_some_iff.mp h
  exact Value.isKeyed_table.mpr (Entries.IsKeyed.nil.foldlM_insert hmembers hfold)

theorem isKeyed_readInlineTable? (hitem : item.IsKeyed) : (readInlineTable? item).IsKeyed := by
  intro text value rest h
  unfold readInlineTable? at h
  split at h
  · cases h
    exact Value.isKeyed_table.mpr .nil
  · obtain ⟨⟨members, behind⟩, hmembers, h⟩ := Option.bind_eq_some_iff.mp h
    obtain ⟨table, htable, ⟨⟩⟩ := Option.bind_eq_some_iff.mp h
    exact isKeyed_inlineTable? (isKeyed_readMembers? hitem hmembers) htable

theorem isKeyed_readValue? (depth : Nat) : (readValue? depth).IsKeyed := by
  induction depth with
  | zero => exact isKeyed_readScalar?
  | succ depth ih =>
    intro text value rest h
    unfold readValue? at h
    split at h
    · obtain ⟨⟨items, behind⟩, hitems, ⟨⟩⟩ := Option.map_eq_some_iff.mp h
      exact .array (isKeyed_readItems? ih hitems)
    · exact isKeyed_readInlineTable? ih _ _ _ h
    · exact isKeyed_readScalar? _ _ _ h

/-- No line of a document has a value with a key twice. -/
theorem isKeyed_readStatement? {text rest : List Char} {line : Statement}
    (h : readStatement? text = some (line, rest)) : line.IsKeyed := by
  unfold readStatement? at h
  split at h
  · obtain ⟨⟨key, behind⟩, -, h⟩ := Option.bind_eq_some_iff.mp h
    dsimp only at h
    split at h
    · obtain ⟨behind', -, ⟨⟩⟩ := Option.bind_eq_some_iff.mp h
      trivial
    · cases h
  · obtain ⟨⟨key, behind⟩, -, h⟩ := Option.bind_eq_some_iff.mp h
    dsimp only at h
    split at h
    · obtain ⟨behind', -, ⟨⟩⟩ := Option.bind_eq_some_iff.mp h
      trivial
    · cases h
  · obtain ⟨⟨⟨key, value⟩, behind⟩, hentry, h⟩ := Option.bind_eq_some_iff.mp h
    obtain ⟨behind', -, ⟨⟩⟩ := Option.bind_eq_some_iff.mp h
    exact isKeyed_of_entry (isKeyed_readValue? _) hentry

theorem isKeyed_readStatements? {count : Nat} {text : List Char} {lines : List Statement}
    (h : readStatements? count text = some lines) : ∀ line ∈ lines, line.IsKeyed := by
  induction count generalizing text lines with
  | zero => cases h
  | succ count ih =>
    rw [readStatements?] at h
    split at h
    · cases h
      exact nofun
    · obtain ⟨⟨line, behind⟩, hline, h⟩ := Option.bind_eq_some_iff.mp h
      obtain ⟨more, hmore, ⟨⟩⟩ := Option.bind_eq_some_iff.mp h
      exact List.forall_mem_cons.mpr ⟨isKeyed_readStatement? hline, ih hmore⟩

/-- **No table of a document that is read has a key twice.** -/
theorem isKeyed_readDocument? {text : String} {entries : Entries}
    (h : readDocument? text = some entries) : entries.IsKeyed := by
  obtain ⟨lines, hlines, h⟩ := Option.bind_eq_some_iff.mp h
  obtain ⟨final, hfold, rfl⟩ := Option.map_eq_some_iff.mp h
  exact Assembly.isKeyed_foldlM .nil (isKeyed_readStatements? hlines) hfold

end DynamicQuorum.Toml
