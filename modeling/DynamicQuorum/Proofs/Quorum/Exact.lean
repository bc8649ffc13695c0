/-
  DynamicQuorum/Proofs/Quorum/Exact.lean
  ======================================
  **The quorum is the one of the formula over unbounded numbers.**

  The formula is written once more below, over natural numbers and without any bound, and the
  computation on words is shown to agree with it on all inputs.  Three of its steps can leave
  256 bits.  The share against and the votes of a share are then refused.  The adjustment is
  clamped to the ceiling instead, which is exact: a product of `2 ^ 256` or more still exceeds
  every ceiling after the division by the scale.  What remains below the ceiling is a ratio,
  so narrowing it never fails.
-/
import DynamicQuorum.Quorum.Params
import DynamicQuorum.Proofs.Word256.Arithmetic

namespace DynamicQuorum

open Word256 (size size_eq)

/-! ### The formula -/

def exactShare (against supply lo hi coefficient : Nat) : Nat :=
  if supply = 0 then lo
  else min hi (lo + coefficient * (10000 * against / supply) / 10 ^ 6)

/-- The quorum in votes, with the two products that have to be words. -/
def exactVotes (against supply lo hi coefficient : Nat) : Except GovernanceError Nat :=
  if 0 < supply ∧ 2 ^ 256 ≤ 10000 * against then .error (.overflow .againstShare)
  else if 2 ^ 256 ≤ exactShare against supply lo hi coefficient * supply then
    .error (.overflow .votesOfShare)
  else .ok (exactShare against supply lo hi coefficient * supply / 10000)

/-- What is wrong with two bounds: the first that is no ratio, or else their order. -/
def boundsFault? (lo hi : Nat) : Option ParamsFault :=
  if 10000 < lo then some (.bound .min (.bpsOutOfRange lo))
  else if 10000 < hi then some (.bound .max (.bpsOutOfRange hi))
  else if hi < lo then some (.inverted hi lo)
  else none

/-- The quorum of plain numbers. -/
def exactQuorum (against supply lo hi coefficient : Nat) : Except GovernanceError Nat :=
  match boundsFault? lo hi with
  | some fault => .error (.invalidParameters fault)
  | none => exactVotes against supply lo hi coefficient

theorem exactVotes_error {against supply lo hi coefficient : Nat} {cause : GovernanceError}
    (h : exactVotes against supply lo hi coefficient = .error cause) :
    cause = .overflow .againstShare ∨ cause = .overflow .votesOfShare := by
  unfold exactVotes at h
  split at h
  · left
    cases h
    rfl
  split at h
  · right
    cases h
    rfl
  · cases h

/-- There is a quorum in votes when both products are words. -/
theorem exactVotes_eq_ok {against supply lo hi coefficient votes : Nat} :
    exactVotes against supply lo hi coefficient = .ok votes ↔
      (0 < supply → 10000 * against < 2 ^ 256) ∧
        exactShare against supply lo hi coefficient * supply < 2 ^ 256 ∧
        votes = exactShare against supply lo hi coefficient * supply / 10000 := by
  unfold exactVotes
  split
  next hagainst => exact ⟨nofun, fun h => absurd (h.1 hagainst.1) (Nat.not_lt.mpr hagainst.2)⟩
  next hagainst =>
    split
    next hshare => exact ⟨nofun, fun h => absurd h.2.1 (Nat.not_lt.mpr hshare)⟩
    next hshare =>
      constructor
      · rintro ⟨⟩
        exact ⟨fun hsupply => by omega, Nat.lt_of_not_le hshare, rfl⟩
      · rintro ⟨-, -, rfl⟩
        rfl

theorem boundsFault?_eq_none {lo hi : Nat} :
    boundsFault? lo hi = none ↔ lo ≤ 10000 ∧ hi ≤ 10000 ∧ lo ≤ hi := by
  unfold boundsFault?
  split
  · simp; omega
  split
  · simp; omega
  split
  · simp; omega
  · simp; omega

/-! ### Ratios -/

namespace BasisPoints

theorem toNat_le (b : BasisPoints) : b.toNat ≤ 10000 := b.le_denominator

theorem toNat_injective {a b : BasisPoints} (h : a.toNat = b.toNat) : a = b := by
  cases a
  cases b
  simp only [toNat, UInt16.toNat_inj] at h
  subst h
  rfl

theorem ofUInt16_eq_ok {value : UInt16} {b : BasisPoints} :
    ofUInt16 value = .ok b ↔ value.toNat = b.toNat := by
  rw [ofUInt16]
  split
  next hle =>
    constructor
    · rintro ⟨⟩
      rfl
    · intro h
      exact congrArg Except.ok (toNat_injective h)
  next hlarge =>
    constructor
    · rintro ⟨⟩
    · intro h
      exact absurd (h ▸ b.toNat_le) hlarge

theorem ofUInt32_eq_ok {value : UInt32} {b : BasisPoints} :
    ofUInt32 value = .ok b ↔ value.toNat = b.toNat := by
  have hb := b.val.toNat_lt
  rw [ofUInt32]
  split
  next hsmall =>
    rw [ofUInt16_eq_ok, UInt32.toNat_toUInt16, Nat.mod_eq_of_lt hsmall]
  next hlarge =>
    constructor
    · rintro ⟨⟩
    · intro h
      exact absurd (h ▸ hb) hlarge

def ofNat (n : Nat) (h : n ≤ 10000) : BasisPoints :=
  ⟨UInt16.ofNat n, by rw [UInt16.toNat_ofNat']; omega⟩

@[simp] theorem toNat_ofNat {n : Nat} (h : n ≤ 10000) : (ofNat n h).toNat = n := by
  rw [toNat, ofNat, UInt16.toNat_ofNat']
  omega

@[simp] theorem toNat_toWord (b : BasisPoints) : b.toWord.toNat = b.toNat :=
  Word256.toNat_ofUInt16 b.val

theorem share_eq (b : BasisPoints) (amount : Word256) :
    b.share amount = if b.toNat * amount.toNat < size
      then some (.ofNat (b.toNat * amount.toNat / 10000)) else none := by
  have hden : (Word256.ofUInt16 denominator).toNat = 10000 := by decide
  rw [share, Word256.mul?_eq, toNat_toWord, Nat.mul_comm]
  split
  next hlt =>
    rw [Option.bind_some, Word256.div?_eq, hden, Word256.toNat_ofNat_of_lt hlt]
    rfl
  next => rfl

end BasisPoints

/-! ### The steps of the computation -/

theorem votesOfShare_eq (b : BasisPoints) (supply : Word256) :
    votesOfShare b supply = if 2 ^ 256 ≤ b.toNat * supply.toNat
      then .error (.overflow .votesOfShare)
      else .ok (.ofNat (b.toNat * supply.toNat / 10000)) := by
  rw [votesOfShare, BasisPoints.share_eq, ← size_eq]
  by_cases h : size ≤ b.toNat * supply.toNat
  · rw [if_neg (Nat.not_lt.mpr h), if_pos h]
  · rw [if_pos (Nat.lt_of_not_le h), if_neg h]

theorem votesOfShare_eq_ok {b : BasisPoints} {supply votes : Word256} :
    votesOfShare b supply = .ok votes ↔ b.toNat * supply.toNat < 2 ^ 256 ∧
      votes.toNat = b.toNat * supply.toNat / 10000 := by
  have hquot : b.toNat * supply.toNat / 10000 ≤ b.toNat * supply.toNat := Nat.div_le_self _ _
  rw [votesOfShare_eq]
  split
  next hle => exact ⟨nofun, fun h => by omega⟩
  next hlt =>
    have hvalue := Word256.toNat_ofNat_of_lt (n := b.toNat * supply.toNat / 10000)
      (Nat.lt_of_le_of_lt hquot (Nat.lt_of_not_le hlt))
    rw [Except.ok.injEq, ← Word256.toNat_inj, hvalue]
    constructor
    · intro h
      exact ⟨Nat.lt_of_not_le hlt, h.symm⟩
    · rintro ⟨-, h⟩
      exact h.symm

namespace QuorumParams

theorem againstShare_eq {s : VoteSnapshot} (h : 0 < s.totalSupply.toNat) :
    againstShare s = if 2 ^ 256 ≤ 10000 * s.againstVotes.toNat
      then .error (.overflow .againstShare)
      else .ok (.ofNat (10000 * s.againstVotes.toNat / s.totalSupply.toNat)) := by
  have hden : (Word256.ofUInt16 BasisPoints.denominator).toNat = 10000 := by decide
  rw [againstShare, Word256.mul?_eq, hden, Nat.mul_comm, ← size_eq]
  by_cases hlt : size ≤ 10000 * s.againstVotes.toNat
  · rw [if_neg (Nat.not_lt.mpr hlt), if_pos hlt]
    rfl
  · rw [if_pos (Nat.lt_of_not_le hlt), if_neg hlt, Option.bind_some, Word256.div?_eq,
      if_neg (Nat.ne_of_gt h), Word256.toNat_ofNat_of_lt (Nat.lt_of_not_le hlt)]

/-- Only the product of the slope can leave the range: what it leaves after the division by the
    scale is far from `size`. -/
theorem adjustedShare?_eq (p : QuorumParams) (share : Word256) :
    p.adjustedShare? share = if p.coefficient.toNat * share.toNat < size
      then some (.ofNat (p.coefficient.toNat * share.toNat / 10 ^ 6 + p.minBps.toNat))
      else none := by
  have hscale : (Word256.ofUInt64 coefficientScale).toNat = 10 ^ 6 := by decide
  have hlo := p.minBps.toNat_le
  rw [adjustedShare?, Word256.mul?_eq]
  split
  next hlt =>
    -- the division by the scale makes room for the floor
    have hquot : p.coefficient.toNat * share.toNat / 10 ^ 6 < size := by omega
    have hsum : p.coefficient.toNat * share.toNat / 10 ^ 6 + p.minBps.toNat < size := by
      rw [size_eq] at hlt ⊢
      omega
    simp only [Option.bind_eq_bind, Option.bind_some, Word256.div?_eq, hscale,
      Word256.toNat_ofNat_of_lt hlt, Word256.add?_eq, BasisPoints.toNat_toWord]
    rw [if_neg (by decide), Option.bind_some, Word256.toNat_ofNat_of_lt hquot, if_pos hsum]
  next => rfl

/-- A share of at most the whole goes through all three narrowings. -/
theorem narrowShare_eq {w : Word256} (h : w.toNat ≤ 10000) :
    narrowShare w = .ok (.ofNat w.toNat h) := by
  have hlimb : (UInt64.ofNat w.toNat).toNat = w.toNat :=
    Limb.toNat_ofNat_of_lt (by rw [Limb.radix_eq]; omega)
  have hshort : (UInt64.ofNat w.toNat).toUInt16.toNat = w.toNat := by
    rw [UInt64.toNat_toUInt16, hlimb]
    omega
  rw [narrowShare, Word256.toUInt64?_eq, if_pos (by rw [Limb.radix_eq]; omega)]
  simp only [hlimb]
  rw [if_pos (by rw [UInt16.size]; omega), BasisPoints.ofUInt16, dif_pos (by omega)]
  exact congrArg Except.ok
    (BasisPoints.toNat_injective (hshort.trans (BasisPoints.toNat_ofNat h).symm))

def shareOf (p : QuorumParams) (s : VoteSnapshot) : Nat :=
  exactShare s.againstVotes.toNat s.totalSupply.toNat p.minBps.toNat p.maxBps.toNat
    p.coefficient.toNat

theorem shareOf_le (p : QuorumParams) (s : VoteSnapshot) : p.shareOf s ≤ 10000 := by
  have hlo := p.minBps.toNat_le
  have hhi := p.maxBps.toNat_le
  unfold shareOf exactShare
  split
  · exact hlo
  · exact Nat.le_trans (Nat.min_le_left _ _) hhi

/-- Capping an adjusted share gives the minimum of the formula, also where the product of the
    slope leaves the range. -/
theorem capShare_adjustedShare? (p : QuorumParams) (share : Word256) :
    ∃ b : BasisPoints, p.capShare (p.adjustedShare? share) = .ok b ∧
      b.toNat = min p.maxBps.toNat
        (p.minBps.toNat + p.coefficient.toNat * share.toNat / 10 ^ 6) := by
  have hlo := p.minBps.toNat_le
  have hhi := p.maxBps.toNat_le
  rw [adjustedShare?_eq]
  split
  next hlt =>
    have hsum : p.coefficient.toNat * share.toNat / 10 ^ 6 + p.minBps.toNat < size := by
      rw [size_eq] at hlt ⊢
      omega
    rw [capShare]
    split
    next hcap =>
      rw [Word256.lt_iff, Word256.toNat_ofNat_of_lt hsum, BasisPoints.toNat_toWord] at hcap
      have hle : (Word256.ofNat (p.coefficient.toNat * share.toNat / 10 ^ 6 +
          p.minBps.toNat)).toNat ≤ 10000 := by
        rw [Word256.toNat_ofNat_of_lt hsum]
        omega
      refine ⟨_, narrowShare_eq hle, ?_⟩
      rw [BasisPoints.toNat_ofNat, Word256.toNat_ofNat_of_lt hsum]
      omega
    next hcap =>
      rw [Word256.lt_iff, Word256.toNat_ofNat_of_lt hsum, BasisPoints.toNat_toWord] at hcap
      exact ⟨_, rfl, by omega⟩
  next hge =>
    -- past 256 bits the quotient by the scale still exceeds every ceiling
    rw [size_eq] at hge
    exact ⟨_, rfl, by omega⟩

/-- The share of the program is that of the formula, unless the votes against leave the range. -/
theorem quorumShare_eq (p : QuorumParams) (s : VoteSnapshot) :
    p.quorumShare s =
      if 0 < s.totalSupply.toNat ∧ 2 ^ 256 ≤ 10000 * s.againstVotes.toNat
      then .error (.overflow .againstShare)
      else .ok (.ofNat (p.shareOf s) (p.shareOf_le s)) := by
  by_cases hzero : s.totalSupply.toNat = 0
  · rw [quorumShare, if_pos (Word256.isZero_iff.mpr hzero), if_neg (by omega)]
    refine congrArg Except.ok (BasisPoints.toNat_injective ?_)
    rw [BasisPoints.toNat_ofNat, shareOf, exactShare, if_pos hzero]
  · have hpos : 0 < s.totalSupply.toNat := Nat.pos_of_ne_zero hzero
    rw [quorumShare, if_neg (mt Word256.isZero_iff.mp hzero), againstShare_eq hpos]
    by_cases hlt : 2 ^ 256 ≤ 10000 * s.againstVotes.toNat
    · rw [if_pos hlt, if_pos ⟨hpos, hlt⟩]
      rfl
    · rw [if_neg hlt, if_neg (by omega)]
      have hshare : 10000 * s.againstVotes.toNat / s.totalSupply.toNat < size :=
        Nat.lt_of_le_of_lt (Nat.div_le_self _ _) (Nat.lt_of_not_le hlt)
      -- the share of the votes against is a word, so the cap finds a ratio
      obtain ⟨b, hcap, hb⟩ := p.capShare_adjustedShare?
        (.ofNat (10000 * s.againstVotes.toNat / s.totalSupply.toNat))
      refine hcap.trans (congrArg Except.ok (BasisPoints.toNat_injective ?_))
      rw [hb, BasisPoints.toNat_ofNat, shareOf, exactShare, if_neg hzero,
        Word256.toNat_ofNat_of_lt hshare]

/-- The votes of a quorum are those of the formula, whatever the parameters. -/
theorem quorumVotes_eq (p : QuorumParams) (s : VoteSnapshot) :
    (p.quorumVotes s).map Word256.toNat =
      exactVotes s.againstVotes.toNat s.totalSupply.toNat p.minBps.toNat p.maxBps.toNat
        p.coefficient.toNat := by
  have hshare := p.shareOf_le s
  have hsupply := s.totalSupply.toNat_lt
  rw [quorumVotes, quorumShare_eq, exactVotes, ← shareOf]
  split
  next => rfl
  next =>
    change (votesOfShare _ _).map _ = _
    rw [votesOfShare_eq, BasisPoints.toNat_ofNat]
    split
    next => rfl
    next hlt =>
      refine congrArg Except.ok (Word256.toNat_ofNat_of_lt ?_)
      rw [size_eq]
      omega

/-- A quorum exists if two products are words; this is how many votes it is. -/
theorem quorumVotes_eq_ok {p : QuorumParams} {s : VoteSnapshot} {quorum : Word256} :
    p.quorumVotes s = .ok quorum ↔
      (0 < s.totalSupply.toNat → 10000 * s.againstVotes.toNat < 2 ^ 256) ∧
        p.shareOf s * s.totalSupply.toNat < 2 ^ 256 ∧
        quorum.toNat = p.shareOf s * s.totalSupply.toNat / 10000 := by
  rw [shareOf, ← exactVotes_eq_ok, ← quorumVotes_eq]
  cases p.quorumVotes s with
  | error cause => exact ⟨nofun, nofun⟩
  | ok votes =>
    constructor
    · rintro ⟨⟩
      rfl
    · intro h
      rw [Word256.toNat_injective (Except.ok.inj h)]

theorem quorumVotes_isOk {p : QuorumParams} {s : VoteSnapshot} :
    (∃ quorum, p.quorumVotes s = .ok quorum) ↔
      (0 < s.totalSupply.toNat → 10000 * s.againstVotes.toNat < 2 ^ 256) ∧
        p.shareOf s * s.totalSupply.toNat < 2 ^ 256 := by
  constructor
  · rintro ⟨quorum, h⟩
    obtain ⟨hagainst, hshare, -⟩ := quorumVotes_eq_ok.mp h
    exact ⟨hagainst, hshare⟩
  · rintro ⟨hagainst, hshare⟩
    refine ⟨_, quorumVotes_eq_ok.mpr ⟨hagainst, hshare, Word256.toNat_ofNat_of_lt ?_⟩⟩
    exact Nat.lt_of_le_of_lt (Nat.div_le_self _ _) hshare

/-- Nothing but one of these products is ever at fault. -/
theorem quorumVotes_error {p : QuorumParams} {s : VoteSnapshot} {cause : GovernanceError}
    (h : p.quorumVotes s = .error cause) :
    cause = .overflow .againstShare ∨ cause = .overflow .votesOfShare := by
  have hexact := p.quorumVotes_eq s
  rw [h] at hexact
  exact exactVotes_error hexact.symm

/-! ### Plain numbers -/

/-- Plain numbers are refused for the first fault of the bounds, and are taken as they stand
    if there is none. -/
theorem ofRaw_eq (lo hi : UInt16) (coefficient : Word256) :
    (∃ fault, boundsFault? lo.toNat hi.toNat = some fault ∧
      ofRaw lo hi coefficient = .error (.invalidParameters fault)) ∨
    (boundsFault? lo.toNat hi.toNat = none ∧ ∃ p, ofRaw lo hi coefficient = .ok p ∧
      p.minBps.toNat = lo.toNat ∧ p.maxBps.toNat = hi.toNat ∧ p.coefficient = coefficient) := by
  by_cases hlo : lo.toNat ≤ 10000
  · by_cases hhi : hi.toNat ≤ 10000
    · have hbounds : ofRaw lo hi coefficient = make ⟨lo, hlo⟩ ⟨hi, hhi⟩ coefficient := by
        simp only [ofRaw, ofRaw.bound, BasisPoints.ofUInt16, dif_pos hlo, dif_pos hhi]
        rfl
      by_cases hord : IsOrdered ⟨⟨lo, hlo⟩, ⟨hi, hhi⟩, coefficient⟩
      · right
        refine ⟨boundsFault?_eq_none.mpr ⟨hlo, hhi, hord⟩, ⟨⟨lo, hlo⟩, ⟨hi, hhi⟩, coefficient⟩,
          ?_, rfl, rfl, rfl⟩
        rw [hbounds, make, validate, if_pos hord]
        rfl
      · left
        have hinv : hi.toNat < lo.toNat := Nat.lt_of_not_le hord
        refine ⟨.inverted hi.toNat lo.toNat, ?_, ?_⟩
        · rw [boundsFault?, if_neg (by omega), if_neg (by omega), if_pos hinv]
        · rw [hbounds, make, validate, if_neg hord]
          rfl
    · left
      refine ⟨.bound .max (.bpsOutOfRange hi.toNat), ?_, ?_⟩
      · rw [boundsFault?, if_neg (by omega), if_pos (by omega)]
      · simp only [ofRaw, ofRaw.bound, BasisPoints.ofUInt16, dif_pos hlo, dif_neg hhi]
        rfl
  · left
    refine ⟨.bound .min (.bpsOutOfRange lo.toNat), ?_, ?_⟩
    · rw [boundsFault?, if_pos (by omega)]
    · simp only [ofRaw, ofRaw.bound, BasisPoints.ofUInt16, dif_neg hlo]
      rfl

end QuorumParams

/-- **The dynamic quorum is exact.**  On all words and all 16-bit numbers the computation gives
    what the formula gives over unbounded numbers, the errors included.  Parameters are refused
    exactly when a bound is no ratio or the bounds are inverted; the only other refusals
    are those of the two products that have to be words. -/
theorem dynamicQuorumVotes_exact (against supply : Word256) (lo hi : UInt16)
    (coefficient : Word256) :
    (dynamicQuorumVotes against supply lo hi coefficient).map Word256.toNat =
        exactQuorum against.toNat supply.toNat lo.toNat hi.toNat coefficient.toNat ∧
      ((∃ fault, dynamicQuorumVotes against supply lo hi coefficient =
          .error (.invalidParameters fault)) ↔
        10000 < lo.toNat ∨ 10000 < hi.toNat ∨ hi.toNat < lo.toNat) ∧
      (∀ cause, dynamicQuorumVotes against supply lo hi coefficient = .error cause →
        (∃ fault, cause = .invalidParameters fault) ∨ cause = .overflow .againstShare ∨
          cause = .overflow .votesOfShare) := by
  obtain ⟨fault, hfault, hraw⟩ | ⟨hsound, p, hraw, hlo, hhi, rfl⟩ :=
    QuorumParams.ofRaw_eq lo hi coefficient
  · -- the bounds are at fault: nothing else is looked at
    have hquorum : dynamicQuorumVotes against supply lo hi coefficient =
        .error (.invalidParameters fault) := by
      rw [dynamicQuorumVotes, hraw]
      rfl
    have hbad : ¬ (lo.toNat ≤ 10000 ∧ hi.toNat ≤ 10000 ∧ lo.toNat ≤ hi.toNat) := by
      rw [← boundsFault?_eq_none, hfault]
      simp
    refine ⟨?_, ⟨fun _ => by omega, fun _ => ⟨fault, hquorum⟩⟩, ?_⟩
    · rw [hquorum, exactQuorum, hfault]
      rfl
    · intro cause hcause
      rw [hquorum] at hcause
      cases hcause
      exact .inl ⟨fault, rfl⟩
  · -- the bounds are sound: the votes are those of the parameters made from them
    have hquorum : dynamicQuorumVotes against supply lo hi p.coefficient =
        p.quorumVotes ⟨against, supply⟩ := by
      rw [dynamicQuorumVotes, hraw]
      rfl
    have hexact := p.quorumVotes_eq ⟨against, supply⟩
    rw [hlo, hhi, ← hquorum] at hexact
    have hcauses : ∀ cause, dynamicQuorumVotes against supply lo hi p.coefficient = .error cause →
        cause = .overflow .againstShare ∨ cause = .overflow .votesOfShare := by
      intro cause hcause
      rw [hcause] at hexact
      exact exactVotes_error hexact.symm
    have hbounds := boundsFault?_eq_none.mp hsound
    refine ⟨by rw [hexact, exactQuorum, hsound], ⟨?_, fun h => by omega⟩, ?_⟩
    · rintro ⟨fault, hfault⟩
      rcases hcauses _ hfault with h | h <;> cases h
    · intro cause hcause
      exact .inr (hcauses cause hcause)

end DynamicQuorum
