/-
  DynamicQuorum/Proofs/Quorum/Bounds.lean
  =======================================
  **The quorum lies between its floor and its ceiling.**

  The bounds hold of the share before it is converted, and the conversion is monotone, so they
  hold of the votes.  Whether the votes exist is decided by the product of the share and the
  supply, which lies between those of the two bounds: the floor in votes exists whenever the
  quorum does, and the quorum does not need a ceiling in votes.
-/
import DynamicQuorum.Proofs.Quorum.Monotone

namespace DynamicQuorum.QuorumParams

variable {p : QuorumParams} {s : VoteSnapshot} {quorum : Word256}

/-! ### The share -/

theorem IsOrdered.le_shareOf (h : p.IsOrdered) (s : VoteSnapshot) :
    p.minBps.toNat ≤ p.shareOf s := by
  unfold shareOf exactShare
  split
  · exact Nat.le_refl _
  · exact Nat.le_min.mpr ⟨h, Nat.le_add_right _ _⟩

/-- Without a supply the share is the floor, wherever the ceiling is, but no votes come of it. -/
theorem shareOf_mul_le (p : QuorumParams) (s : VoteSnapshot) :
    p.shareOf s * s.totalSupply.toNat ≤ p.maxBps.toNat * s.totalSupply.toNat := by
  by_cases hzero : s.totalSupply.toNat = 0
  · simp [hzero]
  · apply Nat.mul_le_mul_right
    rw [shareOf, exactShare, if_neg hzero]
    exact Nat.min_le_left _ _

/-- Votes against that add nothing, or none at all, leave the share at the floor. -/
theorem IsOrdered.shareOf_eq_minBps (h : p.IsOrdered)
    (hflat : p.coefficient.toNat * s.againstVotes.toNat = 0) : p.shareOf s = p.minBps.toNat := by
  have hadded : p.coefficient.toNat * (10000 * s.againstVotes.toNat / s.totalSupply.toNat) = 0 := by
    rcases Nat.mul_eq_zero.mp hflat with hzero | hzero
    · rw [hzero, Nat.zero_mul]
    · rw [hzero, Nat.mul_zero, Nat.zero_div, Nat.mul_zero]
  unfold shareOf exactShare
  split
  · rfl
  · rw [hadded]
    exact Nat.min_eq_right h

/-! ### The votes -/

/-- Without votes against, the quorum is the floor. -/
theorem IsOrdered.quorumVotes_eq_minVotes (h : p.IsOrdered) (supply : Word256) :
    p.quorumVotes ⟨.zero, supply⟩ = p.minVotes supply := by
  have hfloor : p.shareOf ⟨.zero, supply⟩ = p.minBps.toNat := h.shareOf_eq_minBps (by simp)
  have hshare : p.quorumShare ⟨.zero, supply⟩ = .ok p.minBps := by
    rw [quorumShare_eq, if_neg (by simp)]
    refine congrArg Except.ok (BasisPoints.toNat_injective ?_)
    rw [BasisPoints.toNat_ofNat, hfloor]
  rw [quorumVotes, hshare, minVotes]
  rfl

theorem IsOrdered.minVotes_le (h : p.IsOrdered) (hquorum : p.quorumVotes s = .ok quorum) :
    ∃ floor, p.minVotes s.totalSupply = .ok floor ∧ floor ≤ quorum := by
  obtain ⟨-, hshare, hvotes⟩ := quorumVotes_eq_ok.mp hquorum
  have hle : p.minBps.toNat * s.totalSupply.toNat ≤ p.shareOf s * s.totalSupply.toNat :=
    Nat.mul_le_mul_right _ (h.le_shareOf s)
  have hfloor : p.minBps.toNat * s.totalSupply.toNat < 2 ^ 256 := Nat.lt_of_le_of_lt hle hshare
  have hvalue := Word256.toNat_ofNat_of_lt (Nat.lt_of_le_of_lt (Nat.div_le_self _ 10000) hfloor)
  refine ⟨_, votesOfShare_eq_ok.mpr ⟨hfloor, hvalue⟩, ?_⟩
  rw [Word256.le_iff, hvalue, hvotes]
  exact Nat.div_le_div_right hle

theorem quorumVotes_le_maxVotes {ceiling : Word256} (hquorum : p.quorumVotes s = .ok quorum)
    (hceiling : p.maxVotes s.totalSupply = .ok ceiling) : quorum ≤ ceiling := by
  obtain ⟨-, -, hvotes⟩ := quorumVotes_eq_ok.mp hquorum
  obtain ⟨-, hvotes'⟩ := votesOfShare_eq_ok.mp hceiling
  rw [Word256.le_iff, hvotes, hvotes']
  exact Nat.div_le_div_right (p.shareOf_mul_le s)

/-- A share of at most the whole never asks for more than there is. -/
theorem quorumVotes_le_supply (hquorum : p.quorumVotes s = .ok quorum) :
    quorum ≤ s.totalSupply := by
  obtain ⟨-, -, hvotes⟩ := quorumVotes_eq_ok.mp hquorum
  rw [Word256.le_iff, hvotes]
  apply Nat.div_le_of_le_mul
  exact Nat.mul_le_mul_right _ (p.shareOf_le s)

/-- Where the ceiling in votes exists, only the product of the votes against can be at fault. -/
theorem quorumVotes_isOk_of_maxVotes {ceiling : Word256}
    (hceiling : p.maxVotes s.totalSupply = .ok ceiling)
    (hagainst : s.totalSupply = .zero ∨ 10000 * s.againstVotes.toNat < 2 ^ 256) :
    ∃ quorum, p.quorumVotes s = .ok quorum := by
  obtain ⟨hmax, -⟩ := votesOfShare_eq_ok.mp hceiling
  refine quorumVotes_isOk.mpr ⟨?_, Nat.lt_of_le_of_lt (p.shareOf_mul_le s) hmax⟩
  intro hpos
  rcases hagainst with hzero | hlt
  · rw [hzero, Word256.toNat_zero] at hpos
    cases hpos
  · exact hlt

/-! ### Monotone and bounded -/

/-- **The quorum is monotone and bounded.**  If it can be computed for some votes against and some
    parameters, it can be computed for fewer votes and for parameters no higher, and is no higher
    then.  With sound parameters it is at least the floor in votes, which then exists; it is at
    most the supply, and at most the ceiling in votes as far as that exists.  Where the ceiling
    exists, so does the quorum, unless the votes against leave the range. -/
theorem quorum_is_monotone_and_bounded (p : QuorumParams) (supply : Word256) :
    (∀ (p' : QuorumParams) (against against' quorum' : Word256), p.AtMost p' → against ≤ against' →
      p'.quorumVotes ⟨against', supply⟩ = .ok quorum' →
      ∃ quorum, p.quorumVotes ⟨against, supply⟩ = .ok quorum ∧ quorum ≤ quorum') ∧
    (p.IsOrdered → ∀ against quorum, p.quorumVotes ⟨against, supply⟩ = .ok quorum →
      (∃ floor, p.minVotes supply = .ok floor ∧ floor ≤ quorum) ∧ quorum ≤ supply ∧
        ∀ ceiling, p.maxVotes supply = .ok ceiling → quorum ≤ ceiling) ∧
    (∀ against ceiling, p.maxVotes supply = .ok ceiling →
      supply = .zero ∨ 10000 * against.toNat < 2 ^ 256 →
      ∃ quorum, p.quorumVotes ⟨against, supply⟩ = .ok quorum) := by
  refine ⟨?_, ?_, ?_⟩
  · intro p' against against' quorum' hparams hagainst hquorum'
    have hle := Word256.le_iff.mp hagainst
    obtain ⟨quorum, hquorum⟩ := hparams.quorumVotes_isOk hle hquorum'
    exact ⟨quorum, hquorum, Word256.le_iff.mpr (hparams.quorumVotes_le hle hquorum hquorum')⟩
  · intro hordered against quorum hquorum
    refine ⟨hordered.minVotes_le hquorum, quorumVotes_le_supply hquorum, ?_⟩
    intro ceiling hceiling
    exact quorumVotes_le_maxVotes hquorum hceiling
  · intro against ceiling hceiling hagainst
    exact quorumVotes_isOk_of_maxVotes hceiling hagainst

/-- Of a supply of `2 ^ 250` the whole in basis points is no word. -/
def trialSupply : Word256 := .ofNat (2 ^ 250)

/-- A slope of one from 0.1 %, and a slope of two from 0.2 %, neither with a ceiling. -/
def trialLow : QuorumParams := ⟨⟨10, by decide⟩, .whole, .ofUInt64 1000000⟩
def trialHigh : QuorumParams := ⟨⟨20, by decide⟩, .whole, .ofUInt64 2000000⟩

/-- Both quorums exist, although the ceiling does not; of a small supply it does as well. -/
theorem quorum_is_monotone_and_bounded_trial :
    (∃ quorum quorum', trialHigh.quorumVotes ⟨.ofNat (2 ^ 250 / 500), trialSupply⟩ = .ok quorum' ∧
      trialLow.quorumVotes ⟨.ofNat (2 ^ 250 / 1000), trialSupply⟩ = .ok quorum ∧
      quorum ≤ quorum' ∧ trialLow.maxVotes trialSupply = .error (.overflow .votesOfShare) ∧
      (∃ floor, trialLow.minVotes trialSupply = .ok floor ∧ floor ≤ quorum) ∧
      quorum ≤ trialSupply) ∧
    trialLow.maxVotes (.ofUInt64 1000) = .ok (.ofUInt64 1000) ∧
    ∃ quorum, trialLow.quorumVotes ⟨.ofUInt64 70, .ofUInt64 1000⟩ = .ok quorum := by
  obtain ⟨hmono, hbounds, -⟩ := quorum_is_monotone_and_bounded trialLow trialSupply
  obtain ⟨-, -, hexists⟩ := quorum_is_monotone_and_bounded trialLow (.ofUInt64 1000)
  have hparams : trialLow.AtMost trialHigh := ⟨by decide, by decide, by decide⟩
  have hhigh : trialHigh.quorumVotes ⟨.ofNat (2 ^ 250 / 500), trialSupply⟩ =
      .ok (.ofNat (58 * 2 ^ 250 / 10000)) := by decide +kernel
  obtain ⟨quorum, hquorum, hle⟩ := hmono trialHigh (.ofNat (2 ^ 250 / 1000)) _ _ hparams
    (by decide +kernel) hhigh
  obtain ⟨hfloor, hsupply, -⟩ := hbounds (by decide) _ quorum hquorum
  have hceiling : trialLow.maxVotes (.ofUInt64 1000) = .ok (.ofUInt64 1000) := by decide +kernel
  exact ⟨⟨quorum, _, hhigh, hquorum, hle, by decide +kernel, hfloor, hsupply⟩, hceiling,
    hexists (.ofUInt64 70) _ hceiling (.inr (by decide +kernel))⟩

end DynamicQuorum.QuorumParams
