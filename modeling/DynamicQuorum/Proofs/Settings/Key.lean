/-
  DynamicQuorum/Proofs/Settings/Key.lean
  ======================================
  **A key is a place in the settings that holds one value.**

  What is put in the place of a key is found there, and every other place is as it was.  Each value
  has one text under which it is shown, and that text is read back as the value; other texts may
  stand for it, too, such as numerals with zeros in front.
-/
import DynamicQuorum.Settings.Basic
import DynamicQuorum.Proofs.Quorum.Exact
import DynamicQuorum.Proofs.Text.Natural
import DynamicQuorum.Proofs.Word256.Decimal

namespace DynamicQuorum.Settings

variable {s : Settings} {key other : Key} {text : String}

/-! ### Values and their texts -/

abbrev Key.Value : Key → Type
  | .logLevel => String
  | .jsonLogs => Bool
  | .daoV3 => Bool
  | .minBps => BasisPoints
  | .maxBps => BasisPoints
  | .coefficient => Word256

def Key.read : (key : Key) → String → Except Error key.Value
  | .logLevel, text => .ok text
  | .jsonLogs, text => readTruth text
  | .daoV3, text => readTruth text
  | .minBps, text => readBps text
  | .maxBps, text => readBps text
  | .coefficient, text => readCoefficient text

/-- The text of a value: a text is its own, and a number is written as its shortest numeral. -/
def Key.canonical : (key : Key) → key.Value → String
  | .logLevel, text => text
  | .jsonLogs, b => if b then "true" else "false"
  | .daoV3, b => if b then "true" else "false"
  | .minBps, b => toString b.toNat
  | .maxBps, b => toString b.toNat
  | .coefficient, w => toString w.toNat

theorem readTruth_eq_ok {b : Bool} :
    readTruth text = .ok b ↔ text = if b then "true" else "false" := by
  rw [readTruth]
  by_cases htrue : text = "true"
  · cases b <;> simp [htrue]
  · by_cases hfalse : text = "false" <;> cases b <;> simp [htrue, hfalse]

/-- The numerals of a ratio are those of its basis points. -/
theorem readBps_eq_ok {b : BasisPoints} :
    readBps text = .ok b ↔ Text.readNatural UInt16.size text.toList = .ok b.toNat := by
  refine Iff.trans ?_ (Text.readUInt16_eq_ok (v := b.val))
  rw [readBps]
  cases Text.readUInt16 text with
  | error cause => simp
  | ok value =>
    dsimp only
    rw [Except.ok.injEq, ← UInt16.toNat_inj]
    refine Iff.trans ?_ BasisPoints.ofUInt16_eq_ok
    cases BasisPoints.ofUInt16 value <;> simp

theorem readCoefficient_eq_ok {w : Word256} :
    readCoefficient text = .ok w ↔ Word256.ofString text = .ok w := by
  rw [readCoefficient]
  cases Word256.ofString text <;> simp

theorem toList_toString (n : Nat) : (toString n).toList = Nat.toDigits 10 n := by
  rw [Nat.toString_eq_repr, Nat.toList_repr]

theorem toDecimal_eq_toString (w : Word256) : w.toDecimal = toString w.toNat :=
  String.toList_inj.mp (w.toList_toDecimal.trans (toList_toString _).symm)

/-- The text of a value is read as that value. -/
theorem Key.read_canonical (key : Key) (v : key.Value) : key.read (key.canonical v) = .ok v := by
  have hbps : ∀ b : BasisPoints, readBps (toString b.toNat) = .ok b := by
    intro b
    rw [readBps_eq_ok, toList_toString]
    exact Text.readNatural_toDigits b.val.toNat_lt
  cases key with
  | logLevel => rfl
  | jsonLogs => exact readTruth_eq_ok.mpr rfl
  | daoV3 => exact readTruth_eq_ok.mpr rfl
  | minBps => exact hbps v
  | maxBps => exact hbps v
  | coefficient =>
    rw [Key.read, Key.canonical, readCoefficient_eq_ok, ← toDecimal_eq_toString]
    exact v.ofString_toDecimal

/-! ### Places -/

def value (s : Settings) : (key : Key) → key.Value
  | .logLevel => s.logLevel
  | .jsonLogs => s.jsonLogs
  | .daoV3 => s.daoV3
  | .minBps => s.quorum.minBps
  | .maxBps => s.quorum.maxBps
  | .coefficient => s.quorum.coefficient

/-- The settings with another value in the place of a key, sound or not. -/
def put (s : Settings) : (key : Key) → key.Value → Settings
  | .logLevel, text => { s with logLevel := text }
  | .jsonLogs, b => { s with jsonLogs := b }
  | .daoV3, b => { s with daoV3 := b }
  | .minBps, b => { s with quorum := { s.quorum with minBps := b } }
  | .maxBps, b => { s with quorum := { s.quorum with maxBps := b } }
  | .coefficient, w => { s with quorum := { s.quorum with coefficient := w } }

theorem value_put (s : Settings) (key : Key) (v : key.Value) : (s.put key v).value key = v := by
  cases key <;> rfl

theorem value_put_of_ne (s : Settings) (v : key.Value) (h : other ≠ key) :
    (s.put key v).value other = s.value other := by
  cases key <;> cases other <;> first | rfl | exact absurd rfl h

theorem put_value (s : Settings) (key : Key) : s.put key (s.value key) = s := by
  cases key <;> rfl

theorem get_eq (s : Settings) (key : Key) : s.get key = key.canonical (s.value key) := by
  cases key with
  | coefficient => exact toDecimal_eq_toString _
  | _ => rfl

/-! ### Names -/

theorem Key.ofName?_eq_some {name : String} : ofName? name = some key ↔ key.name = name := by
  constructor
  · intro h
    simpa using List.find?_some h
  · rintro rfl
    cases key <;> rfl

theorem Key.ofName_eq_ok {name : String} : ofName name = .ok key ↔ key.name = name := by
  rw [← ofName?_eq_some, ofName]
  cases ofName? name <;> simp

theorem getNamed_name (s : Settings) (key : Key) : s.getNamed key.name = .ok (s.get key) := by
  rw [getNamed, Key.ofName_eq_ok.mpr rfl]
  rfl

end DynamicQuorum.Settings
