/-
  DynamicQuorum/Proofs/Interchange/Scalars.lean
  =============================================
  **Single values survive JSON.**
-/
import DynamicQuorum.Interchange.Scalars
import DynamicQuorum.Proofs.Address
import DynamicQuorum.Proofs.Json.Decoder
import DynamicQuorum.Proofs.Word256.Decimal

namespace DynamicQuorum

open Json Json.Decoder

variable {depth : Nat}

theorem liftValue_eq_ok {α β : Type} {check : α → Except ValueError β} {a : α} {b : β}
    (h : check a = .ok b) : liftValue check a = .ok b := by
  rw [liftValue, h]

theorem Word256.reads (w : Word256) : Reads decoder depth w.toJson w := by
  have hstring : Reads (refine string (liftValue ofString)) depth w.toJson w :=
    (reads_string w.toDecimal).refine (liftValue_eq_ok w.ofString_toDecimal)
  exact hstring

theorem Address.reads (a : Address) : Reads decoder depth a.toJson a :=
  (reads_string a.toHex).refine (liftValue_eq_ok a.ofString_toHex)

/-- A ratio is written from 16 bits and read through 32 of them. -/
theorem BasisPoints.ofUInt32_val (b : BasisPoints) : ofUInt32 b.val.toUInt64.toUInt32 = .ok b := by
  have hsmall : b.val.toUInt64.toUInt32.toNat = b.val.toNat := by simp
  have hnarrow : b.val.toUInt64.toUInt32.toUInt16 = b.val := UInt16.toNat_inj.mp (by simp)
  rw [ofUInt32, hsmall, if_pos b.val.toNat_lt, hnarrow, ofUInt16, dif_pos b.le_denominator]

theorem BasisPoints.reads (b : BasisPoints) : Reads decoder depth b.toJson b := by
  have hnumber : b.toJson = .number b.val.toUInt64.toNat := by
    rw [toJson, UInt16.toNat_toUInt64]
    rfl
  rw [hnumber]
  refine (reads_below ?_).refine (liftValue_eq_ok b.ofUInt32_val)
  rw [UInt16.toNat_toUInt64]
  exact Nat.lt_trans b.val.toNat_lt (by decide)

theorem VoteSupport.reads (s : VoteSupport) : Reads decoder depth s.toJson s := by
  have hnumber : s.toJson = .number s.code.toUInt64.toNat := by cases s <;> rfl
  rw [hnumber]
  refine (reads_below ?_).refine ?_
  · cases s <;> decide
  · cases s <;> rfl

theorem ProposalStatus.reads (s : ProposalStatus) : Reads decoder depth s.toJson s :=
  reads_variant (by cases s <;> rfl)

end DynamicQuorum
