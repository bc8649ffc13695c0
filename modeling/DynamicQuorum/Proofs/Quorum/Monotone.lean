/-
  DynamicQuorum/Proofs/Quorum/Monotone.lean
  =========================================
  **The quorum never falls when votes against are added or parameters are raised.**

  Each step of the formula is monotone in the votes against and in all three parameters,
  truncation and the minimum with the ceiling included, and so are the words computed for it.
  The products that have to be words grow along, so what can be computed can be computed for
  less as well.
-/
import DynamicQuorum.Proofs.Quorum.Exact

namespace DynamicQuorum

/-- The share grows with each of its four numbers. -/
theorem exactShare_mono {against against' lo lo' hi hi' coefficient coefficient' : Nat}
    (supply : Nat) (hagainst : against ≤ against') (hlo : lo ≤ lo') (hhi : hi ≤ hi')
    (hcoefficient : coefficient ≤ coefficient') :
    exactShare against supply lo hi coefficient ≤
      exactShare against' supply lo' hi' coefficient' := by
  unfold exactShare
  split
  · exact hlo
  · have hshare : 10000 * against / supply ≤ 10000 * against' / supply :=
      Nat.div_le_div_right (Nat.mul_le_mul_left 10000 hagainst)
    have hslope : coefficient * (10000 * against / supply) / 10 ^ 6 ≤
        coefficient' * (10000 * against' / supply) / 10 ^ 6 :=
      Nat.div_le_div_right (Nat.mul_le_mul hcoefficient hshare)
    omega

namespace QuorumParams

structure AtMost (p p' : QuorumParams) : Prop where
  minBps : p.minBps ≤ p'.minBps
  maxBps : p.maxBps ≤ p'.maxBps
  coefficient : p.coefficient ≤ p'.coefficient

variable {p p' : QuorumParams} {against against' supply quorum quorum' : Word256}

theorem AtMost.refl (p : QuorumParams) : p.AtMost p :=
  ⟨Nat.le_refl p.minBps.toNat, Nat.le_refl p.maxBps.toNat, Word256.le_iff.mpr (Nat.le_refl _)⟩

theorem AtMost.shareOf_le (h : p.AtMost p') (hagainst : against.toNat ≤ against'.toNat) :
    p.shareOf ⟨against, supply⟩ ≤ p'.shareOf ⟨against', supply⟩ :=
  exactShare_mono supply.toNat hagainst h.minBps h.maxBps (Word256.le_iff.mp h.coefficient)

/-- More votes against call for no fewer votes, and so do higher parameters. -/
theorem AtMost.quorumVotes_le (h : p.AtMost p') (hagainst : against.toNat ≤ against'.toNat)
    (hquorum : p.quorumVotes ⟨against, supply⟩ = .ok quorum)
    (hquorum' : p'.quorumVotes ⟨against', supply⟩ = .ok quorum') :
    quorum.toNat ≤ quorum'.toNat := by
  obtain ⟨-, -, hvotes⟩ := quorumVotes_eq_ok.mp hquorum
  obtain ⟨-, -, hvotes'⟩ := quorumVotes_eq_ok.mp hquorum'
  rw [hvotes, hvotes']
  exact Nat.div_le_div_right (Nat.mul_le_mul_right _ (h.shareOf_le hagainst))

/-- A quorum that can be computed can be computed for fewer votes against and for lower
    parameters. -/
theorem AtMost.quorumVotes_isOk (h : p.AtMost p') (hagainst : against.toNat ≤ against'.toNat)
    (hquorum' : p'.quorumVotes ⟨against', supply⟩ = .ok quorum') :
    ∃ quorum, p.quorumVotes ⟨against, supply⟩ = .ok quorum := by
  obtain ⟨hproduct, hshare, -⟩ := quorumVotes_eq_ok.mp hquorum'
  refine QuorumParams.quorumVotes_isOk.mpr ⟨?_, ?_⟩
  · intro hsupply
    exact Nat.lt_of_le_of_lt (Nat.mul_le_mul_left 10000 hagainst) (hproduct hsupply)
  · exact Nat.lt_of_le_of_lt (Nat.mul_le_mul_right _ (h.shareOf_le hagainst)) hshare

end QuorumParams

end DynamicQuorum
