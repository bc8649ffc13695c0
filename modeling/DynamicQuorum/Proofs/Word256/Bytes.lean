/-
  DynamicQuorum/Proofs/Word256/Bytes.lean
  =======================================
  **The bytes of a word.**

  Eight bytes make up a limb, and thirty-two a word, the most significant first.  They are the
  digits of the number to the base 256.
-/
import DynamicQuorum.Word256.Numeral
import DynamicQuorum.Proofs.Text.BigEndian
import DynamicQuorum.Proofs.Word256.Value

namespace DynamicQuorum

open Text (bigEndian)

namespace Limb

theorem bigEndian_toBytes (x : UInt64) : bigEndian (toBytes x) = x.toNat := by
  have hx := x.toNat_lt
  simp only [bigEndian, toBytes, List.map_cons, List.map_nil, List.reverse_cons, List.reverse_nil,
    List.nil_append, List.cons_append, Nat.ofDigits_cons, Nat.ofDigits_nil, UInt64.toNat_toUInt8,
    UInt64.toNat_shiftRight, Nat.shiftRight_eq_div_pow, UInt64.reduceToNat, Nat.reduceMod,
    Nat.reducePow]
  omega

/-- A byte goes in at the low end, if the byte at the high end is free. -/
theorem toNat_pushByte {x : UInt64} (h : x.toNat < 256 ^ 7) (b : UInt8) :
    ((x <<< 8) ||| b.toUInt64).toNat = b.toNat + 256 * x.toNat := by
  have hb := b.toNat_lt
  have hshift : (x <<< 8).toNat = 2 ^ 8 * x.toNat := by
    rw [UInt64.toNat_shiftLeft, Nat.shiftLeft_eq, show (8 : UInt64).toNat % 64 = 8 from rfl]
    omega
  rw [UInt64.toNat_or, hshift, UInt8.toNat_toUInt64, ← Nat.two_pow_add_eq_or_of_lt hb]
  omega

theorem toNat_ofBytes {bytes : List UInt8} (h : bytes.length ≤ 8) :
    (ofBytes bytes).toNat = bigEndian bytes := by
  induction bytes using List.reverseRecOn with
  | nil => rfl
  | append_singleton front b ih =>
    rw [List.length_append, List.length_singleton] at h
    have hfront := ih (by omega)
    have hroom : (ofBytes front).toNat < 256 ^ 7 := by
      rw [hfront]
      exact Nat.lt_of_lt_of_le (Text.bigEndian_lt front)
        (Nat.pow_le_pow_right (by decide) (by omega))
    have hsnoc : ofBytes (front ++ [b]) = (ofBytes front <<< 8) ||| b.toUInt64 := by
      rw [ofBytes, List.foldl_append]
      rfl
    have hlast : bigEndian [b] = b.toNat := by simp [bigEndian]
    rw [hsnoc, toNat_pushByte hroom, hfront, Text.bigEndian_append, hlast]
    rfl

end Limb

namespace Word256

theorem length_toBytes (w : Word256) : w.toBytes.length = 32 := rfl

theorem bigEndian_toBytes (w : Word256) : bigEndian w.toBytes = w.toNat := by
  have hlength : ∀ x, (Limb.toBytes x).length = 8 := fun _ => rfl
  simp only [toBytes, Text.bigEndian_append, Limb.bigEndian_toBytes, hlength, toNat,
    Limb.radix_eq]
  omega

theorem bigEndian_take_drop (bytes : List UInt8) (n : Nat) :
    bigEndian bytes =
      bigEndian (bytes.drop n) + 256 ^ (bytes.drop n).length * bigEndian (bytes.take n) := by
  rw [← Text.bigEndian_append, List.take_append_drop]

theorem toNat_limbsOfBytes {bytes : List UInt8} (h : bytes.length = 32) :
    (mk (Limb.ofBytes (bytes.drop 24)) (Limb.ofBytes ((bytes.drop 16).take 8))
      (Limb.ofBytes ((bytes.drop 8).take 8)) (Limb.ofBytes (bytes.take 8))).toNat =
        bigEndian bytes := by
  have htop := bigEndian_take_drop bytes 8
  have hmid := bigEndian_take_drop (bytes.drop 8) 8
  have hlow := bigEndian_take_drop (bytes.drop 16) 8
  simp only [List.drop_drop, List.length_drop, h, Nat.reduceAdd, Nat.reduceSub] at htop hmid hlow
  rw [toNat_mk, Limb.toNat_ofBytes (by simp [h]), Limb.toNat_ofBytes (by simp),
    Limb.toNat_ofBytes (by simp), Limb.toNat_ofBytes (by simp), htop, hmid, hlow, Limb.radix_eq]
  omega

/-- At most thirty-two bytes make up the word of their number. -/
theorem ofBytes?_eq_some {bytes : List UInt8} {w : Word256} :
    ofBytes? bytes = some w ↔ bytes.length ≤ 32 ∧ w.toNat = bigEndian bytes := by
  rw [ofBytes?]
  split
  next hle =>
    have hfull : (List.replicate (32 - bytes.length) 0 ++ bytes).length = 32 := by
      rw [List.length_append, List.length_replicate]
      omega
    have hvalue := toNat_limbsOfBytes hfull
    rw [Text.bigEndian_zeros] at hvalue
    rw [Option.some_inj, ← toNat_inj, hvalue, and_iff_right hle, eq_comm]
  next hgt => exact ⟨nofun, fun h => absurd h.1 hgt⟩

theorem ofBytes?_eq_none {bytes : List UInt8} : ofBytes? bytes = none ↔ 32 < bytes.length := by
  rw [ofBytes?]
  split
  next hle => simp [hle]
  next hgt => simp [Nat.lt_of_not_le hgt]

theorem ofBytes?_toBytes (w : Word256) : ofBytes? w.toBytes = some w := by
  rw [ofBytes?_eq_some, bigEndian_toBytes]
  exact ⟨by rw [length_toBytes], rfl⟩

theorem toBytes_ofBytes? {bytes : List UInt8} {w : Word256} (h : ofBytes? bytes = some w)
    (hlength : bytes.length = 32) : w.toBytes = bytes := by
  obtain ⟨-, hvalue⟩ := ofBytes?_eq_some.mp h
  apply Text.bigEndian_injective
  · rw [length_toBytes, hlength]
  · rw [bigEndian_toBytes, hvalue]

/-- The bytes are the digits of the number to the base 256. -/
theorem digitsAppend_toNat (w : Word256) :
    Nat.digitsAppend 256 32 w.toNat = (w.toBytes.map UInt8.toNat).reverse := by
  have hdigits := Text.digitsAppend_bigEndian w.toBytes
  rwa [bigEndian_toBytes, length_toBytes] at hdigits

end Word256

end DynamicQuorum
