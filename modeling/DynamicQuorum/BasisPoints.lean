/-
  DynamicQuorum/BasisPoints.lean
  ==============================
  **Ratios in hundredths of a percent.**

  A ratio lies between zero and one, that is between 0 and 10000 basis points; the type
  carries the bound.
-/
import DynamicQuorum.Error
import DynamicQuorum.Word256.Numeral

namespace DynamicQuorum

/-- A ratio: one basis point is 0.01 %. -/
structure BasisPoints where
  val : UInt16
  le_denominator : val.toNat ≤ 10000 := by decide
deriving DecidableEq, Repr

namespace BasisPoints

def denominator : UInt16 := 10000

def zero : BasisPoints := ⟨0, by decide⟩
def whole : BasisPoints := ⟨10000, by decide⟩

instance : Inhabited BasisPoints := ⟨zero⟩

def toNat (b : BasisPoints) : Nat := b.val.toNat

instance : LT BasisPoints := ⟨fun a b => a.toNat < b.toNat⟩
instance : LE BasisPoints := ⟨fun a b => a.toNat ≤ b.toNat⟩
instance (a b : BasisPoints) : Decidable (a < b) := inferInstanceAs (Decidable (a.toNat < b.toNat))
instance (a b : BasisPoints) : Decidable (a ≤ b) := inferInstanceAs (Decidable (a.toNat ≤ b.toNat))

def ofUInt16 (value : UInt16) : Except ValueError BasisPoints :=
  if h : value.toNat ≤ 10000 then .ok ⟨value, h⟩ else .error (.bpsOutOfRange value.toNat)

def ofUInt32 (value : UInt32) : Except ValueError BasisPoints :=
  if value.toNat < UInt16.size then ofUInt16 value.toUInt16
  else .error (.bpsOutOfRange value.toNat)

def toWord (b : BasisPoints) : Word256 := Word256.ofUInt16 b.val

/-- This share of `amount`, rounded down; `none` if the product leaves the range. -/
def share (b : BasisPoints) (amount : Word256) : Option Word256 :=
  (amount.mul? b.toWord).bind (·.div? (Word256.ofUInt16 denominator))

def toPercent (b : BasisPoints) : String :=
  toString (b.toNat / 100) ++ "." ++
    String.ofList (Text.zeroPad 2 (Nat.toDigits 10 (b.toNat % 100))) ++ "%"

/-- The number under the name of its type, as journals show it. -/
def describe (b : BasisPoints) : String := "Bps(" ++ toString b.toNat ++ ")"

end BasisPoints

end DynamicQuorum
