/-
  DynamicQuorum/Proofs/Word256/Quotient.lean
  ==========================================
  **Division is exact on each of its paths.**

  Quotient and remainder are fixed by the equation that they satisfy, so the paths agree wherever
  more than one of them could be taken.  The division by a limb runs down the limbs of the dividend
  with a remainder below the divisor; this keeps each of its quotients below `radix`, so that
  none of them loses anything in a limb.
-/
import DynamicQuorum.Proofs.Word256.Arithmetic

namespace DynamicQuorum.Word256

open Limb (radix)

variable {n d q r : Word256} {divisor : UInt64}

theorem divMod?_eq_none (n d : Word256) : n.divMod? d = none ↔ d.toNat = 0 := by
  rw [divMod?_eq]
  split
  next h => simpa using h
  next h => simpa using h

theorem divMod?_eq_some (n d q r : Word256) :
    n.divMod? d = some (q, r) ↔ IsDivision n d q r := by
  rw [divMod?_eq]
  split
  next hzero =>
    constructor
    · intro h
      cases h
    · rintro ⟨-, hlt⟩
      omega
  next hne =>
    constructor
    · intro h
      cases h
      have hquot : n.toNat / d.toNat < size :=
        Nat.lt_of_le_of_lt (Nat.div_le_self _ _) n.toNat_lt
      have hrem : n.toNat % d.toNat < size := Nat.lt_of_le_of_lt (Nat.mod_le _ _) n.toNat_lt
      rw [IsDivision, toNat_ofNat_of_lt hquot, toNat_ofNat_of_lt hrem]
      exact ⟨(Nat.div_add_mod' _ _).symm, Nat.mod_lt _ (Nat.pos_of_ne_zero hne)⟩
    · intro h
      rw [h.pair_eq]

/-! ### A divisor of one limb -/

/-- The quotients of a division by a limb, from the top down and before they are put into limbs. -/
def quotientsDown (divisor rem : Nat) : List UInt64 → List Nat
  | [] => []
  | limb :: rest =>
    (rem * radix + limb.toNat) / divisor ::
      quotientsDown divisor ((rem * radix + limb.toNat) % divisor) rest

theorem quotientsDown_lt {divisor rem : Nat} (h : rem < divisor) (limbs : List UInt64) :
    ∀ quotient ∈ quotientsDown divisor rem limbs, quotient < radix := by
  induction limbs generalizing rem with
  | nil => simp [quotientsDown]
  | cons limb rest ih =>
    intro quotient hquotient
    rcases List.mem_cons.mp hquotient with rfl | hrest
    · exact Limb.quotient_lt_radix h limb
    · exact ih (Nat.mod_lt _ (Nat.zero_lt_of_lt h)) quotient hrest

/-- The limbs of the quotient are these quotients. -/
theorem limbs_divModLimb (n : Word256) (h : 0 < divisor.toNat) :
    (divModLimb n divisor).1.limbs.reverse.map (·.toNat) =
      quotientsDown divisor.toNat 0 n.limbs.reverse := by
  have hstart : (0 : UInt64).toNat < divisor.toNat := h
  have hr3 := (Limb.divStep_value hstart n.l3).2
  have hr2 := (Limb.divStep_value hr3 n.l2).2
  have hr1 := (Limb.divStep_value hr2 n.l1).2
  obtain ⟨hq3, he3⟩ := Limb.divStep_toNat hstart n.l3
  obtain ⟨hq2, he2⟩ := Limb.divStep_toNat hr3 n.l2
  obtain ⟨hq1, he1⟩ := Limb.divStep_toNat hr2 n.l1
  obtain ⟨hq0, -⟩ := Limb.divStep_toNat hr1 n.l0
  -- each remainder is the start of the next lower limb
  rw [UInt64.toNat_zero] at hq3 he3
  rw [he3] at hq2 he2
  rw [he2] at hq1 he1
  rw [he1] at hq0
  simp only [divModLimb, limbs, List.reverse_cons, List.reverse_nil, List.nil_append,
    List.cons_append, List.map_cons, List.map_nil, quotientsDown, hq3, hq2, hq1, hq0]

/-! ### Division -/

/-- **Division is exact.**  There is no quotient for the divisor zero; for any other one the answer
    is the one pair with `n = q * d + r` and `r < d`, of which `div?` and `mod?` take the parts.
    Each path gives it wherever it can be taken: a dividend below the divisor is its own
    remainder, long division serves every divisor, and the division by a limb every divisor of one
    limb.  The quotients of the latter fit 64 bits, and are the limbs of its result. -/
theorem division_is_exact (n d : Word256) :
    (n.divMod? d = none ↔ d.toNat = 0) ∧
      (∀ q r, n.divMod? d = some (q, r) ↔
        n.toNat = q.toNat * d.toNat + r.toNat ∧ r.toNat < d.toNat) ∧
      n.div? d = (n.divMod? d).map Prod.fst ∧ n.mod? d = (n.divMod? d).map Prod.snd ∧
      (n < d → IsDivision n d zero n) ∧
      (d.toNat ≠ 0 →
        IsDivision n d (divModBits n d n.bitLength (zero, zero)).1
          (divModBits n d n.bitLength (zero, zero)).2) ∧
      (∀ divisor : UInt64, divisor ≠ 0 →
        IsDivision n (ofUInt64 divisor) (divModLimb n divisor).1
          (ofUInt64 (divModLimb n divisor).2) ∧
        (∀ quotient ∈ quotientsDown divisor.toNat 0 n.limbs.reverse, quotient < 2 ^ 64) ∧
        (divModLimb n divisor).1.limbs.reverse.map (·.toNat) =
          quotientsDown divisor.toNat 0 n.limbs.reverse) := by
  refine ⟨divMod?_eq_none n d, divMod?_eq_some n d, rfl, rfl, isDivision_of_lt, ?_, ?_⟩
  · intro hne
    exact isDivision_divModBits (Nat.pos_of_ne_zero hne)
  · intro divisor hne
    have hpos : 0 < divisor.toNat :=
      Nat.pos_of_ne_zero fun hzero => hne (UInt64.toNat_inj.mp hzero)
    exact ⟨isDivision_divModLimb n hpos, quotientsDown_lt hpos _, limbs_divModLimb n hpos⟩

/-- `2 ^ 256 - 1` by `2 ^ 128 + 2`, and by seven limb by limb. -/
theorem division_is_exact_trial :
    (mk (-1) (-1) (-1) (-1)).divMod? (mk 2 0 1 0) = some (mk (-2) (-1) 0 0, ofUInt64 3) ∧
      (7 : UInt64) ≠ 0 ∧
      IsDivision (mk (-1) (-1) (-1) (-1)) (ofUInt64 7)
        (divModLimb (mk (-1) (-1) (-1) (-1)) 7).1
        (ofUInt64 (divModLimb (mk (-1) (-1) (-1) (-1)) 7).2) := by
  have hseven : (7 : UInt64) ≠ 0 := by decide
  obtain ⟨-, hwide, -⟩ := division_is_exact (mk (-1) (-1) (-1) (-1)) (mk 2 0 1 0)
  obtain ⟨-, -, -, -, -, -, hlimb⟩ := division_is_exact (mk (-1) (-1) (-1) (-1)) zero
  refine ⟨(hwide _ _).mpr ?_, hseven, (hlimb 7 hseven).1⟩
  decide +kernel

end DynamicQuorum.Word256
