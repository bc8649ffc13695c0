/-
  DynamicQuorum/Proofs/Settings/File.lean
  =======================================
  **What is read of a file of settings, and that what was written is read back.**

  A document fills the settings, and its quorum section fills the parameters, field by field.  So
  a file is accepted exactly if each entry that it has under one of the four names can be read; and
  a section exactly if it has all three of its values, each can be read, and the bounds are in
  order.
-/
import DynamicQuorum.Settings.File
import DynamicQuorum.Proofs.Interchange.Proposals
import DynamicQuorum.Proofs.Quorum.Exact
import DynamicQuorum.Proofs.Toml.Keyed
import DynamicQuorum.Proofs.Toml.Layout
import DynamicQuorum.Proofs.Toml.Page
import DynamicQuorum.Proofs.Word256.Decimal

namespace DynamicQuorum.Settings

open Toml (Value Entries Layout)

/-! ### Single values -/

theorem bpsOfValue_natural {n : Nat} {b : BasisPoints} (hn : n < UInt32.size) :
    bpsOfValue (.integer (.ofNat n)) = .ok b ↔ n = b.toNat := by
  have hread : BasisPoints.ofUInt32 (.ofNat n) = .ok b ↔ (UInt32.ofNat n).toNat = b.toNat :=
    BasisPoints.ofUInt32_eq_ok
  rw [UInt32.toNat_ofNat_of_lt' hn] at hread
  rw [← hread, bpsOfValue, if_pos hn]
  cases BasisPoints.ofUInt32 (.ofNat n) <;> simp

theorem bpsOfValue_eq_ok {v : Value} {b : BasisPoints} :
    bpsOfValue v = .ok b ↔ v = .integer b.toNat := by
  constructor
  · intro h
    cases v with
    | integer z =>
      cases z with
      | ofNat n =>
        by_cases hn : n < UInt32.size
        · rw [bpsOfValue_natural hn] at h
          rw [h]
          rfl
        · simp [bpsOfValue, hn] at h
      | negSucc n => cases h
    | _ => cases h
  · rintro rfl
    exact (bpsOfValue_natural (Nat.lt_of_le_of_lt b.toNat_le (by decide))).mpr rfl

theorem map_bpsOfValue_eq_ok {v : Value} {b : BasisPoints} :
    (bpsOfValue v).map some = .ok (some b) ↔ v = .integer b.toNat := by
  simp [Except.map_eq_ok, bpsOfValue_eq_ok]

theorem wordOfValue_toDecimal (w : Word256) : wordOfValue (.string w.toDecimal) = .ok w := by
  rw [wordOfValue, w.ofString_toDecimal]

/-! ### The quorum section -/

inductive QuorumDraft.Field where
  | minBps
  | maxBps
  | coefficient
deriving DecidableEq

/-- A field of the parameters is empty until its value was read. -/
abbrev QuorumDraft.Field.Value : QuorumDraft.Field → Type
  | .minBps => Option BasisPoints
  | .maxBps => Option BasisPoints
  | .coefficient => Option Word256

def QuorumDraft.layout : Layout QuorumDraft FileError QuorumDraft.Field.Value where
  name
    | .minBps => "min_quorum_votes_bps"
    | .maxBps => "max_quorum_votes_bps"
    | .coefficient => "quorum_coefficient"
  read
    | .minBps, v => (bpsOfValue v).map some
    | .maxBps, v => (bpsOfValue v).map some
    | .coefficient, v => (wordOfValue v).map some
  get
    | .minBps, q => q.minBps
    | .maxBps, q => q.maxBps
    | .coefficient, q => q.coefficient
  put
    | .minBps, x, q => { q with minBps := x }
    | .maxBps, x, q => { q with maxBps := x }
    | .coefficient, x, q => { q with coefficient := x }
  name_injective := by
    intro i j h
    cases i <;> cases j <;> first | rfl | exact absurd h (by decide)
  get_put := by
    intro i x s
    cases i <;> rfl
  get_put_of_ne := by
    intro i j x s h
    cases i <;> cases j <;> first | rfl | exact absurd rfl h
  ext := by
    rintro ⟨⟩ ⟨⟩ h
    cases h .minBps
    cases h .maxBps
    cases h .coefficient
    rfl

theorem QuorumDraft.isStep_addEntry : layout.IsStep addEntry where
  field s i v := by
    cases i with
    | minBps => cases hread : bpsOfValue v <;> simp [addEntry, addMin, layout, hread, Except.map]
    | maxBps => cases hread : bpsOfValue v <;> simp [addEntry, addMax, layout, hread, Except.map]
    | coefficient =>
      cases hread : wordOfValue v <;> simp [addEntry, addCoefficient, layout, hread, Except.map]
  other s key v h := by
    have hmin := (h .minBps).symm
    have hmax := (h .maxBps).symm
    have hcoefficient := (h .coefficient).symm
    simp only [layout] at hmin hmax hcoefficient
    simp [addEntry, hmin, hmax, hcoefficient]

def boundKeys : List String := ["min_quorum_votes_bps", "max_quorum_votes_bps"]

def memberKeys : List String := boundKeys ++ ["quorum_coefficient"]

/-- The entries of a section; the items of an array stand for those of a table, in order. -/
def members : Value → Entries
  | .table _ entries => entries
  | .array items => memberKeys.zip items
  | _ => []

theorem nodup_members {v : Value} (h : v.IsKeyed) : (members v).keys.Nodup := by
  cases h with
  | table hkeys hinner => exact hkeys
  | @array items hitems =>
    have hall : memberKeys.Nodup := by decide
    refine hall.sublist ?_
    rw [members, Entries.keys]
    rcases items with - | ⟨a, - | ⟨b, - | ⟨c, rest⟩⟩⟩
    · exact List.nil_sublist _
    · exact List.sublist_append_left ["min_quorum_votes_bps"] _
    · exact List.sublist_append_left ["min_quorum_votes_bps", "max_quorum_votes_bps"] _
    · exact List.Sublist.refl _
  | _ => exact List.nodup_nil

theorem quorumOfValue_eq (v : Value) :
    quorumOfValue v = (members v).foldlM QuorumDraft.addEntry {} >>= QuorumDraft.finish := by
  cases v with
  | array items =>
    rcases items with - | ⟨a, - | ⟨b, - | ⟨c, rest⟩⟩⟩
    · rfl
    · rfl
    · rfl
    · -- items behind the third one are not looked at
      simp only [quorumOfValue, members, memberKeys, boundKeys, List.cons_append, List.nil_append,
        List.zip_cons_cons, List.zip_nil_right, List.zip_nil_left]
      rfl
  | _ => rfl

namespace QuorumDraft

variable {entries : Entries} {lo hi : BasisPoints} {w : Word256} {p : QuorumParams}

theorem finish_some :
    finish ⟨some lo, some hi, some w⟩ = .ok p ↔ p = ⟨lo, hi, w⟩ ∧ p.IsOrdered := by
  rw [← QuorumParams.make_eq_ok, finish]
  cases QuorumParams.make lo hi w <;> simp

/-- All three values have to be there. -/
theorem finish_eq_ok {q : QuorumDraft} :
    q.finish = .ok p ↔ q = ⟨some p.minBps, some p.maxBps, some p.coefficient⟩ ∧ p.IsOrdered := by
  constructor
  · intro h
    rcases q with ⟨- | lo, - | hi, - | w⟩
    any_goals cases h
    obtain ⟨rfl, hordered⟩ := finish_some.mp h
    exact ⟨rfl, hordered⟩
  · rintro ⟨rfl, hordered⟩
    exact finish_some.mpr ⟨rfl, hordered⟩

theorem found_coefficient : layout.Found entries .coefficient none (some w) ↔
    ∃ c, entries.find? "quorum_coefficient" = some c ∧ wordOfValue c = .ok w := by
  rw [Layout.found_of_ne (Option.some_ne_none w)]
  simp [layout, Except.map_eq_ok]

end QuorumDraft

/-- **A section is accepted** exactly if its three values are there and can be read, and the bounds
    are in order. -/
theorem quorumOfValue_eq_ok {v : Value} {p : QuorumParams} (h : v.IsKeyed) :
    quorumOfValue v = .ok p ↔
      (members v).find? "min_quorum_votes_bps" = some (.integer p.minBps.toNat) ∧
      (members v).find? "max_quorum_votes_bps" = some (.integer p.maxBps.toNat) ∧
      (∃ c, (members v).find? "quorum_coefficient" = some c ∧
        wordOfValue c = .ok p.coefficient) ∧ p.IsOrdered := by
  have hmin : QuorumDraft.layout.Found (members v) .minBps none (some p.minBps) ↔
      (members v).find? "min_quorum_votes_bps" = some (.integer p.minBps.toNat) :=
    Layout.found_eq_of_ne (Option.some_ne_none _) fun _ => map_bpsOfValue_eq_ok
  have hmax : QuorumDraft.layout.Found (members v) .maxBps none (some p.maxBps) ↔
      (members v).find? "max_quorum_votes_bps" = some (.integer p.maxBps.toNat) :=
    Layout.found_eq_of_ne (Option.some_ne_none _) fun _ => map_bpsOfValue_eq_ok
  rw [quorumOfValue_eq, Except.bind_eq_ok]
  simp only [QuorumDraft.finish_eq_ok, QuorumDraft.isStep_addEntry.foldlM_eq_ok (nodup_members h)]
  constructor
  · rintro ⟨_, hfound, rfl, hordered⟩
    exact ⟨hmin.mp (hfound .minBps), hmax.mp (hfound .maxBps),
      QuorumDraft.found_coefficient.mp (hfound .coefficient), hordered⟩
  · rintro ⟨hminBps, hmaxBps, hcoefficient, hordered⟩
    refine ⟨_, ?_, rfl, hordered⟩
    intro i
    cases i with
    | minBps => exact hmin.mpr hminBps
    | maxBps => exact hmax.mpr hmaxBps
    | coefficient => exact QuorumDraft.found_coefficient.mpr hcoefficient

/-- An accepted section has bounds up to the whole, in order, and no value is missing. -/
theorem members_of_quorumOfValue {v : Value} {p : QuorumParams} (hkeyed : v.IsKeyed)
    (h : quorumOfValue v = .ok p) :
    (∀ name ∈ boundKeys, ∃ n : Nat, n ≤ 10000 ∧ (members v).find? name = some (.integer n)) ∧
    (∀ lo hi, (members v).find? "min_quorum_votes_bps" = some (.integer lo) →
      (members v).find? "max_quorum_votes_bps" = some (.integer hi) → lo ≤ hi) ∧
    ∀ name ∈ memberKeys, (members v).find? name ≠ none := by
  obtain ⟨hmin, hmax, ⟨c, hcoefficient, -⟩, hordered⟩ := (quorumOfValue_eq_ok hkeyed).mp h
  refine ⟨?_, ?_, ?_⟩
  · simp only [boundKeys, List.forall_mem_cons]
    exact ⟨⟨_, p.minBps.toNat_le, hmin⟩, ⟨_, p.maxBps.toNat_le, hmax⟩, nofun⟩
  · intro lo hi hlo hhi
    rw [hmin] at hlo
    rw [hmax] at hhi
    cases hlo
    cases hhi
    exact Int.ofNat_le.mpr hordered
  · simp only [memberKeys, boundKeys, List.cons_append, List.nil_append, List.forall_mem_cons]
    rw [hmin, hmax, hcoefficient]
    exact ⟨nofun, nofun, nofun, nofun⟩

/-! ### The document -/

inductive Field where
  | logLevel
  | jsonLogs
  | daoV3
  | quorum
deriving DecidableEq

abbrev Field.Value : Field → Type
  | .logLevel => String
  | .jsonLogs => Bool
  | .daoV3 => Bool
  | .quorum => QuorumParams

def textOfValue : Value → Except FileError String
  | .string text => .ok text
  | _ => .error .malformed

def truthOfValue : Value → Except FileError Bool
  | .boolean b => .ok b
  | _ => .error .malformed

def layout : Layout Settings FileError Field.Value where
  name
    | .logLevel => "log_level"
    | .jsonLogs => "json_logs"
    | .daoV3 => "dao_v3"
    | .quorum => "quorum"
  read
    | .logLevel, v => textOfValue v
    | .jsonLogs, v => truthOfValue v
    | .daoV3, v => truthOfValue v
    | .quorum, v => quorumOfValue v
  get
    | .logLevel, s => s.logLevel
    | .jsonLogs, s => s.jsonLogs
    | .daoV3, s => s.daoV3
    | .quorum, s => s.quorum
  put
    | .logLevel, x, s => { s with logLevel := x }
    | .jsonLogs, x, s => { s with jsonLogs := x }
    | .daoV3, x, s => { s with daoV3 := x }
    | .quorum, x, s => { s with quorum := x }
  name_injective := by
    intro i j h
    cases i <;> cases j <;> first | rfl | exact absurd h (by decide)
  get_put := by
    intro i x s
    cases i <;> rfl
  get_put_of_ne := by
    intro i j x s h
    cases i <;> cases j <;> first | rfl | exact absurd rfl h
  ext := by
    rintro ⟨⟩ ⟨⟩ h
    cases h .logLevel
    cases h .jsonLogs
    cases h .daoV3
    cases h .quorum
    rfl

theorem isStep_addEntry : layout.IsStep addEntry where
  field s i v := by
    cases i with
    | logLevel => cases v <;> simp [addEntry, layout, textOfValue, Except.map]
    | jsonLogs => cases v <;> simp [addEntry, layout, truthOfValue, Except.map]
    | daoV3 => cases v <;> simp [addEntry, layout, truthOfValue, Except.map]
    | quorum => simp [addEntry, layout]
  other s key v h := by
    have hlog := (h .logLevel).symm
    have hjson := (h .jsonLogs).symm
    have hdao := (h .daoV3).symm
    have hquorum := (h .quorum).symm
    simp only [layout] at hlog hjson hdao hquorum
    simp [addEntry, hlog, hjson, hdao, hquorum]

theorem textOfValue_eq_ok {v : Value} {text : String} :
    textOfValue v = .ok text ↔ v = .string text := by
  cases v <;> simp [textOfValue]

theorem truthOfValue_eq_ok {v : Value} {b : Bool} : truthOfValue v = .ok b ↔ v = .boolean b := by
  cases v <;> simp [truthOfValue]

/-- Each entry is absent and its field the standard one, or its field is what the entry says. -/
structure IsReadFrom (s : Settings) (entries : Entries) : Prop where
  logLevel : entries.find? "log_level" = none ∧ s.logLevel = standard.logLevel ∨
    entries.find? "log_level" = some (.string s.logLevel)
  jsonLogs : entries.find? "json_logs" = none ∧ s.jsonLogs = standard.jsonLogs ∨
    entries.find? "json_logs" = some (.boolean s.jsonLogs)
  daoV3 : entries.find? "dao_v3" = none ∧ s.daoV3 = standard.daoV3 ∨
    entries.find? "dao_v3" = some (.boolean s.daoV3)
  quorum : entries.find? "quorum" = none ∧ s.quorum = standard.quorum ∨
    ∃ v, entries.find? "quorum" = some v ∧ quorumOfValue v = .ok s.quorum

theorem isReadFrom_iff {entries : Entries} {s : Settings} :
    s.IsReadFrom entries ↔
      ∀ i, layout.Found entries i (layout.get i standard) (layout.get i s) := by
  have hlog : layout.Found entries .logLevel standard.logLevel s.logLevel ↔
      entries.find? "log_level" = none ∧ s.logLevel = standard.logLevel ∨
        entries.find? "log_level" = some (.string s.logLevel) :=
    Layout.found_eq fun _ => textOfValue_eq_ok
  have hjson : layout.Found entries .jsonLogs standard.jsonLogs s.jsonLogs ↔
      entries.find? "json_logs" = none ∧ s.jsonLogs = standard.jsonLogs ∨
        entries.find? "json_logs" = some (.boolean s.jsonLogs) :=
    Layout.found_eq fun _ => truthOfValue_eq_ok
  have hdao : layout.Found entries .daoV3 standard.daoV3 s.daoV3 ↔
      entries.find? "dao_v3" = none ∧ s.daoV3 = standard.daoV3 ∨
        entries.find? "dao_v3" = some (.boolean s.daoV3) :=
    Layout.found_eq fun _ => truthOfValue_eq_ok
  constructor
  · rintro ⟨hlogLevel, hjsonLogs, hdaoV3, hquorum⟩ i
    cases i with
    | logLevel => exact hlog.mpr hlogLevel
    | jsonLogs => exact hjson.mpr hjsonLogs
    | daoV3 => exact hdao.mpr hdaoV3
    | quorum => exact hquorum
  · intro hall
    exact ⟨hlog.mp (hall .logLevel), hjson.mp (hall .jsonLogs), hdao.mp (hall .daoV3),
      hall .quorum⟩

/-- **A document is accepted** exactly if its entries can be read, absent ones aside. -/
theorem ofEntries_eq_ok {entries : Entries} {s : Settings} (h : entries.IsKeyed) :
    ofEntries entries = .ok s ↔ s.IsReadFrom entries := by
  rw [ofEntries, isStep_addEntry.foldlM_eq_ok h.nodup, isReadFrom_iff]

theorem ofText_eq {text : String} {entries : Entries} (h : Toml.readDocument? text = some entries) :
    ofText text = ofEntries entries := by
  rw [ofText, h]

/-! ### Writing and reading -/

theorem fits_toNat (b : BasisPoints) : (Toml.Scalar.natural b.toNat).Fits :=
  Nat.lt_of_le_of_lt b.toNat_le (by decide)

theorem isPlain_toPage (s : Settings) : s.toPage.IsPlain where
  nodup := by
    have hall : ["log_level", "json_logs", "dao_v3", "quorum"].Nodup := by decide
    exact hall
  entries := by
    simp only [toPage, List.forall_mem_cons, List.not_mem_nil, false_imp_iff, implies_true,
      and_true]
    exact ⟨⟨by decide, trivial⟩, ⟨by decide, trivial⟩, ⟨by decide, trivial⟩⟩
  tables := by
    simp only [toPage, quorumEntries, List.forall_mem_cons, List.not_mem_nil, false_imp_iff,
      implies_true, and_true]
    exact ⟨by decide, ⟨by decide, fits_toNat _⟩, ⟨by decide, fits_toNat _⟩, ⟨by decide, trivial⟩⟩
  inner := by
    have hall : memberKeys.Nodup := by decide
    intro table htable
    obtain rfl := List.mem_singleton.mp htable
    exact hall

/-- **What was written is read back**, if the bounds of the quorum are in order. -/
theorem ofText_toText {s : Settings} (h : s.quorum.IsOrdered) : ofText s.toText = .ok s := by
  have hread := Toml.Page.readDocument?_toText s.isPlain_toPage
  have hkeyed := Toml.isKeyed_readDocument? hread
  have hquorum : s.toPage.toEntries.find? "quorum" =
      some (.table .header (Toml.Page.values (quorumEntries s.quorum))) := rfl
  rw [toText, ofText_eq hread, ofEntries_eq_ok hkeyed]
  refine ⟨.inr rfl, .inr rfl, .inr rfl, .inr ⟨_, hquorum, ?_⟩⟩
  exact (quorumOfValue_eq_ok (hkeyed.find? hquorum)).mpr
    ⟨rfl, rfl, ⟨_, rfl, wordOfValue_toDecimal _⟩, h⟩

end DynamicQuorum.Settings
