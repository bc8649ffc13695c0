/-
  DynamicQuorum/Proofs/Text/BigEndian.lean
  ========================================
  **The number that bytes write.**

  Bytes are the digits of a number to the base 256, the most significant first.  Zeros in front
  do not count, and bytes of a fixed length are determined by their number.
-/
import Mathlib.Data.Nat.Digits.Lemmas

namespace DynamicQuorum.Text

/-- The number whose digits to the base 256 are the bytes, the most significant first. -/
def bigEndian (bytes : List UInt8) : Nat := Nat.ofDigits 256 (bytes.map UInt8.toNat).reverse

theorem bigEndian_cons (b : UInt8) (bytes : List UInt8) :
    bigEndian (b :: bytes) = bigEndian bytes + 256 ^ bytes.length * b.toNat := by
  rw [bigEndian, List.map_cons, Nat.ofDigits_reverse_cons, List.length_map, ← bigEndian]

theorem bigEndian_append (front bytes : List UInt8) :
    bigEndian (front ++ bytes) = bigEndian bytes + 256 ^ bytes.length * bigEndian front := by
  rw [bigEndian, List.map_append, List.reverse_append, Nat.ofDigits_append, List.length_reverse,
    List.length_map]
  rfl

theorem bigEndian_zeros (count : Nat) (bytes : List UInt8) :
    bigEndian (List.replicate count 0 ++ bytes) = bigEndian bytes := by
  have hzeros : bigEndian (List.replicate count 0) = 0 := by
    rw [bigEndian, List.map_replicate, List.reverse_replicate]
    exact Nat.ofDigits_replicate_zero
  rw [bigEndian_append, hzeros, Nat.mul_zero, Nat.add_zero]

theorem lt_of_mem_digits {bytes : List UInt8} :
    ∀ d ∈ (bytes.map UInt8.toNat).reverse, d < 256 := by
  intro d hd
  rw [List.mem_reverse] at hd
  obtain ⟨b, -, rfl⟩ := List.mem_map.mp hd
  exact b.toNat_lt

theorem bigEndian_lt (bytes : List UInt8) : bigEndian bytes < 256 ^ bytes.length := by
  have hlt := Nat.ofDigits_lt_base_pow_length (by decide) (@lt_of_mem_digits bytes)
  rwa [List.length_reverse, List.length_map] at hlt

theorem bigEndian_injective {bytes bytes' : List UInt8} (hlength : bytes.length = bytes'.length)
    (h : bigEndian bytes = bigEndian bytes') : bytes = bytes' := by
  have hdigits := Nat.ofDigits_inj_of_len_eq (by decide) (by simpa using hlength)
    lt_of_mem_digits lt_of_mem_digits h
  rw [List.reverse_inj] at hdigits
  exact List.map_injective_iff.mpr (fun _ _ => UInt8.toNat_inj.mp) hdigits

theorem digitsAppend_bigEndian (bytes : List UInt8) :
    Nat.digitsAppend 256 bytes.length (bigEndian bytes) = (bytes.map UInt8.toNat).reverse := by
  obtain ⟨hdigits, -⟩ := Nat.setInvOn_digitsAppend_ofDigits (b := 256) (by decide) bytes.length
  apply hdigits
  exact ⟨by simp, lt_of_mem_digits⟩

end DynamicQuorum.Text
