/-
  DynamicQuorum/Proofs/Quorum/Truncation.lean
  ===========================================
  **Truncation only lowers the quorum, and by a bounded amount.**

  The formula is written once more below, over fractions and without any truncation.  Three
  quotients of the computation are truncated, each by less than one.  What the first one loses is
  multiplied by the slope, the ceiling loses nothing more, and the conversion to votes multiplies
  the loss of both in basis points by the supply.
-/
import Mathlib.Algebra.Order.Floor.Semifield
import Mathlib.Data.Nat.Cast.Order.Field
import Mathlib.Data.Rat.Floor
import Mathlib.Tactic.GCongr
import Mathlib.Tactic.Linarith
import DynamicQuorum.Proofs.Quorum.Bounds

namespace DynamicQuorum

/-! ### The slope -/

theorem div_lt_truncated (m n : Nat) : (m : ℚ) / n < (m / n : Nat) + 1 := by
  rw [← Nat.floor_div_eq_div (K := ℚ)]
  exact Nat.lt_floor_add_one _

/-- What the votes against add to the floor, in basis points. -/
def idealSlope (against supply coefficient : Nat) : ℚ :=
  coefficient * against * 10000 / (10 ^ 6 * supply)

theorem truncated_le_idealSlope (against supply coefficient : Nat) :
    ((coefficient * (10000 * against / supply) / 10 ^ 6 : Nat) : ℚ) ≤
      idealSlope against supply coefficient := by
  have hagainst : ((10000 * against / supply : Nat) : ℚ) ≤ 10000 * against / supply := by
    exact_mod_cast Nat.cast_div_le
  calc ((coefficient * (10000 * against / supply) / 10 ^ 6 : Nat) : ℚ)
      ≤ coefficient * (10000 * against / supply : Nat) / 10 ^ 6 := by
        exact_mod_cast Nat.cast_div_le
    _ ≤ coefficient * (10000 * against / supply) / 10 ^ 6 := by gcongr
    _ = idealSlope against supply coefficient := by
        unfold idealSlope
        ring

/-- The first truncation counts once for each unit of the slope, the second one once. -/
theorem idealSlope_lt_truncated (against supply coefficient : Nat) :
    idealSlope against supply coefficient <
      (coefficient * (10000 * against / supply) / 10 ^ 6 : Nat) +
        (coefficient / 10 ^ 6 + 1) := by
  -- the inner quotient loses less than one, which the slope then scales
  have hagainst : (10000 * against / supply : ℚ) ≤ (10000 * against / supply : Nat) + 1 := by
    exact_mod_cast (div_lt_truncated (10000 * against) supply).le
  have hslope : (coefficient * (10000 * against / supply : Nat) / 10 ^ 6 : ℚ) <
      (coefficient * (10000 * against / supply) / 10 ^ 6 : Nat) + 1 := by
    exact_mod_cast div_lt_truncated (coefficient * (10000 * against / supply)) (10 ^ 6)
  calc idealSlope against supply coefficient
      = coefficient * (10000 * against / supply) / 10 ^ 6 := by
        unfold idealSlope
        ring
    _ ≤ coefficient * ((10000 * against / supply : Nat) + 1) / 10 ^ 6 := by gcongr
    _ = coefficient * (10000 * against / supply : Nat) / 10 ^ 6 + coefficient / 10 ^ 6 := by
        ring
    _ < (coefficient * (10000 * against / supply) / 10 ^ 6 : Nat) + 1 + coefficient / 10 ^ 6 := by
        gcongr
    _ = (coefficient * (10000 * against / supply) / 10 ^ 6 : Nat) +
        (coefficient / 10 ^ 6 + 1) := by ring

namespace QuorumParams

variable {p : QuorumParams} {s : VoteSnapshot} {quorum : Word256}

/-! ### The share -/

def idealShare (p : QuorumParams) (s : VoteSnapshot) : ℚ :=
  min p.maxBps.toNat
    (p.minBps.toNat +
      idealSlope s.againstVotes.toNat s.totalSupply.toNat p.coefficient.toNat)

def idealVotes (p : QuorumParams) (s : VoteSnapshot) : ℚ :=
  p.idealShare s * s.totalSupply.toNat / 10000

theorem cast_shareOf (hsupply : 0 < s.totalSupply.toNat) :
    (p.shareOf s : ℚ) = min (p.maxBps.toNat : ℚ) (p.minBps.toNat +
      (p.coefficient.toNat * (10000 * s.againstVotes.toNat / s.totalSupply.toNat) / 10 ^ 6 :
        Nat)) := by
  rw [shareOf, exactShare, if_neg (Nat.ne_of_gt hsupply), Nat.cast_min, Nat.cast_add]

theorem shareOf_le_idealShare (hsupply : 0 < s.totalSupply.toNat) :
    (p.shareOf s : ℚ) ≤ p.idealShare s := by
  rw [cast_shareOf hsupply, idealShare]
  gcongr
  exact truncated_le_idealSlope _ _ _

/-- Cut off at the ceiling, the shares are no further apart. -/
theorem idealShare_lt (hsupply : 0 < s.totalSupply.toNat) :
    p.idealShare s < p.shareOf s + (p.coefficient.toNat / 10 ^ 6 + 1) := by
  have hslope := idealSlope_lt_truncated s.againstVotes.toNat s.totalSupply.toNat
    p.coefficient.toNat
  have hloss : (0 : ℚ) < p.coefficient.toNat / 10 ^ 6 + 1 := by positivity
  rw [cast_shareOf hsupply, idealShare, ← min_add_add_right]
  -- below the ceiling the bound is that of the slope, and at the ceiling nothing is lost
  apply lt_min
  · exact (min_le_left _ _).trans_lt (lt_add_of_pos_right _ hloss)
  · apply (min_le_right _ _).trans_lt
    linarith

/-! ### The votes -/

theorem quorumVotes_le_idealVotes (hsupply : 0 < s.totalSupply.toNat)
    (hquorum : p.quorumVotes s = .ok quorum) : (quorum.toNat : ℚ) ≤ p.idealVotes s := by
  obtain ⟨-, -, hvotes⟩ := quorumVotes_eq_ok.mp hquorum
  calc (quorum.toNat : ℚ)
      ≤ p.shareOf s * s.totalSupply.toNat / 10000 := by
        rw [hvotes]
        exact_mod_cast Nat.cast_div_le
    _ ≤ p.idealVotes s := by
        unfold idealVotes
        gcongr
        exact shareOf_le_idealShare hsupply

/-- The ideal quorum exceeds the stored one by what the share loses and by one more vote. -/
theorem idealVotes_lt (hsupply : 0 < s.totalSupply.toNat)
    (hquorum : p.quorumVotes s = .ok quorum) :
    p.idealVotes s <
      quorum.toNat + ((p.coefficient.toNat / 10 ^ 6 + 1) * s.totalSupply.toNat / 10000 + 1) := by
  obtain ⟨-, -, hvotes⟩ := quorumVotes_eq_ok.mp hquorum
  have hlast : (p.shareOf s * s.totalSupply.toNat / 10000 : ℚ) < quorum.toNat + 1 := by
    rw [hvotes]
    exact_mod_cast div_lt_truncated (p.shareOf s * s.totalSupply.toNat) 10000
  have hpos : (0 : ℚ) < s.totalSupply.toNat := by exact_mod_cast hsupply
  calc p.idealVotes s
      < (p.shareOf s + (p.coefficient.toNat / 10 ^ 6 + 1)) * s.totalSupply.toNat / 10000 := by
        unfold idealVotes
        gcongr
        exact idealShare_lt hsupply
    _ = p.shareOf s * s.totalSupply.toNat / 10000 +
        (p.coefficient.toNat / 10 ^ 6 + 1) * s.totalSupply.toNat / 10000 := by ring
    _ < quorum.toNat + 1 +
        (p.coefficient.toNat / 10 ^ 6 + 1) * s.totalSupply.toNat / 10000 := by gcongr
    _ = quorum.toNat +
        ((p.coefficient.toNat / 10 ^ 6 + 1) * s.totalSupply.toNat / 10000 + 1) := by ring

/-- A flat share loses to the last truncation only. -/
theorem IsOrdered.quorumVotes_eq_floor (hordered : p.IsOrdered)
    (hflat : p.coefficient.toNat * s.againstVotes.toNat = 0)
    (hquorum : p.quorumVotes s = .ok quorum) :
    quorum.toNat = ⌊(p.minBps.toNat * s.totalSupply.toNat / 10000 : ℚ)⌋₊ := by
  obtain ⟨-, -, hvotes⟩ := quorumVotes_eq_ok.mp hquorum
  rw [hvotes, hordered.shareOf_eq_minBps hflat]
  exact_mod_cast (Nat.floor_div_eq_div (K := ℚ) (p.minBps.toNat * s.totalSupply.toNat) 10000).symm

/-- **Truncation only lowers the quorum, and by little.**  The quorum in votes is no higher than
    the one of the formula over fractions.  It is lower by less than one vote and, of the supply,
    one basis point and one more for each unit of the slope, on either side of the ceiling.  With
    sound parameters, if the slope or the votes against are zero, it is the floor in votes,
    truncated once. -/
theorem truncation_lowers_the_quorum_little (p : QuorumParams) (s : VoteSnapshot)
    (hsupply : 0 < s.totalSupply.toNat) (hquorum : p.quorumVotes s = .ok quorum) :
    (quorum.toNat : ℚ) ≤ p.idealVotes s ∧
    p.idealVotes s - quorum.toNat <
      (p.coefficient.toNat / 10 ^ 6 + 1) * s.totalSupply.toNat / 10000 + 1 ∧
    (p.IsOrdered → p.coefficient = .zero ∨ s.againstVotes = .zero →
      quorum.toNat = ⌊(p.minBps.toNat * s.totalSupply.toNat / 10000 : ℚ)⌋₊) := by
  refine ⟨quorumVotes_le_idealVotes hsupply hquorum, ?_, ?_⟩
  · rw [sub_lt_iff_lt_add']
    exact idealVotes_lt hsupply hquorum
  · intro hordered hzero
    apply hordered.quorumVotes_eq_floor _ hquorum
    rcases hzero with hzero | hzero
    · rw [hzero, Word256.toNat_zero, Nat.zero_mul]
    · rw [hzero, Word256.toNat_zero, Nat.mul_zero]

/-- A slope of 1.5 from 1 %, with no ceiling. -/
def trialSteep : QuorumParams := ⟨⟨100, by decide⟩, .whole, .ofUInt64 1500000⟩

def trialThird : VoteSnapshot := ⟨.ofUInt64 1, .ofUInt64 3⟩
def trialUnopposed : VoteSnapshot := ⟨.zero, .ofUInt64 250⟩

theorem idealVotes_trialThird : trialSteep.idealVotes trialThird = 153 / 100 := by
  have hlo : trialSteep.minBps.toNat = 100 := rfl
  have hhi : trialSteep.maxBps.toNat = 10000 := rfl
  have hcoefficient : trialSteep.coefficient.toNat = 1500000 := rfl
  have hagainst : trialThird.againstVotes.toNat = 1 := rfl
  have hsupply : trialThird.totalSupply.toNat = 3 := rfl
  rw [idealVotes, idealShare, idealSlope, hlo, hhi, hcoefficient, hagainst, hsupply]
  norm_num

/-- A quorum of 1.53 votes is truncated to one, and a floor of 2.5 votes to two. -/
theorem truncation_lowers_the_quorum_little_trial :
    trialSteep.IsOrdered ∧
    (trialSteep.quorumVotes trialThird = .ok (.ofUInt64 1) ∧
      ((Word256.ofUInt64 1).toNat : ℚ) ≤ 153 / 100 ∧
      153 / 100 - ((Word256.ofUInt64 1).toNat : ℚ) <
        (trialSteep.coefficient.toNat / 10 ^ 6 + 1) * trialThird.totalSupply.toNat / 10000 + 1) ∧
    trialSteep.quorumVotes trialUnopposed = .ok (.ofUInt64 2) ∧
    (Word256.ofUInt64 2).toNat =
      ⌊(trialSteep.minBps.toNat * trialUnopposed.totalSupply.toNat / 10000 : ℚ)⌋₊ := by
  have hordered : trialSteep.IsOrdered := by decide
  have hthird : trialSteep.quorumVotes trialThird = .ok (.ofUInt64 1) := by decide +kernel
  have hunopposed : trialSteep.quorumVotes trialUnopposed = .ok (.ofUInt64 2) := by
    decide +kernel
  obtain ⟨hle, hlt, -⟩ := truncation_lowers_the_quorum_little trialSteep trialThird
    (by decide) hthird
  obtain ⟨-, -, hflat⟩ := truncation_lowers_the_quorum_little trialSteep trialUnopposed
    (by decide) hunopposed
  rw [idealVotes_trialThird] at hle hlt
  exact ⟨hordered, ⟨hthird, hle, hlt⟩, hunopposed, hflat hordered (.inr rfl)⟩

end QuorumParams

end DynamicQuorum
