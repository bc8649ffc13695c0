/-
  DynamicQuorum/Quorum/Params.lean
  ================================
  **The dynamic quorum.**

  The quorum that a proposal needs grows with the share of the supply that votes against
  it, from a floor up to a ceiling:

      against share = against votes * 10000 / supply
      adjustment    = coefficient * against share / 10 ^ 6
      quorum share  = min (ceiling, floor + adjustment)
      quorum votes  = quorum share * supply / 10000

  All divisions round down, and each product is taken before the division of its step.
-/
import DynamicQuorum.BasisPoints

namespace DynamicQuorum

/-- The fixed-point scale of the coefficient: at this value a basis point of supply against
    adds a basis point of quorum. -/
def coefficientScale : UInt64 := 1000000

/-- The parameters of a dynamic quorum: a floor and a ceiling, as shares of the supply, and a slope
    scaled by `coefficientScale`.  They are sound when the floor does not exceed the ceiling; a
    history may hold others for a while. -/
structure QuorumParams where
  minBps : BasisPoints
  maxBps : BasisPoints
  coefficient : Word256
deriving DecidableEq, Repr, Inhabited

structure VoteSnapshot where
  againstVotes : Word256
  totalSupply : Word256
deriving DecidableEq, Repr, Inhabited

/-- A share of the supply in votes, rounded down. -/
def votesOfShare (share : BasisPoints) (supply : Word256) : Except GovernanceError Word256 :=
  match share.share supply with
  | some votes => .ok votes
  | none => .error (.overflow .votesOfShare)

namespace QuorumParams

def zero : QuorumParams := ⟨.zero, .zero, .zero⟩

def IsOrdered (p : QuorumParams) : Prop := p.minBps ≤ p.maxBps

instance (p : QuorumParams) : Decidable p.IsOrdered :=
  inferInstanceAs (Decidable (p.minBps ≤ p.maxBps))

/-- Refuse parameters whose ceiling lies below their floor. -/
def validate (p : QuorumParams) : Except GovernanceError Unit :=
  if p.IsOrdered then .ok ()
  else .error (.invalidParameters (.inverted p.maxBps.toNat p.minBps.toNat))

def make (minBps maxBps : BasisPoints) (coefficient : Word256) :
    Except GovernanceError QuorumParams := do
  let p : QuorumParams := ⟨minBps, maxBps, coefficient⟩
  p.validate
  return p

/-- Sound parameters from plain numbers of basis points. -/
def ofRaw (minBps maxBps : UInt16) (coefficient : Word256) :
    Except GovernanceError QuorumParams := do
  let lo ← bound .min minBps
  let hi ← bound .max maxBps
  make lo hi coefficient
where
  bound (which : QuorumBound) (value : UInt16) : Except GovernanceError BasisPoints :=
    match BasisPoints.ofUInt16 value with
    | .ok b => .ok b
    | .error cause => .error (.invalidParameters (.bound which cause))

/-- Whether votes against move the quorum at all. -/
def isDynamic (p : QuorumParams) : Bool := !p.coefficient.isZero

def minVotes (p : QuorumParams) (supply : Word256) : Except GovernanceError Word256 :=
  votesOfShare p.minBps supply

def maxVotes (p : QuorumParams) (supply : Word256) : Except GovernanceError Word256 :=
  votesOfShare p.maxBps supply

/-- The share of the supply that voted against, in basis points; it may exceed the whole. -/
def againstShare (s : VoteSnapshot) : Except GovernanceError Word256 :=
  match (s.againstVotes.mul? (Word256.ofUInt16 BasisPoints.denominator)).bind
      (·.div? s.totalSupply) with
  | some share => .ok share
  | none => .error (.overflow .againstShare)

/-- The floor raised by the slope, with no regard to the ceiling; `none` past 256 bits. -/
def adjustedShare? (p : QuorumParams) (againstShare : Word256) : Option Word256 := do
  let scaled ← p.coefficient.mul? againstShare
  let adjustment ← scaled.div? (.ofUInt64 coefficientScale)
  adjustment.add? p.minBps.toWord

/-- Narrow a share to a ratio: to a limb, to 16 bits, and to at most the whole. -/
def narrowShare (share : Word256) : Except GovernanceError BasisPoints :=
  match share.toUInt64? with
  | none => .error (.value .wordOverflow)
  | some limb =>
    if limb.toNat < UInt16.size then (BasisPoints.ofUInt16 limb.toUInt16).mapError .value
    else .error (.overflow .quorumShare)

/-- Cap a share at the ceiling. -/
def capShare (p : QuorumParams) : Option Word256 → Except GovernanceError BasisPoints
  | some share => if share < p.maxBps.toWord then narrowShare share else .ok p.maxBps
  -- a share past 256 bits lies far above any ceiling
  | none => .ok p.maxBps

/-- The quorum as a share of the supply. -/
def quorumShare (p : QuorumParams) (s : VoteSnapshot) : Except GovernanceError BasisPoints :=
  -- there is no share of an empty supply
  if s.totalSupply.isZero then .ok p.minBps
  else do
    let against ← againstShare s
    p.capShare (p.adjustedShare? against)

def quorumVotes (p : QuorumParams) (s : VoteSnapshot) : Except GovernanceError Word256 := do
  let share ← p.quorumShare s
  votesOfShare share s.totalSupply

end QuorumParams

/-- The dynamic quorum of plain numbers. -/
def dynamicQuorumVotes (againstVotes totalSupply : Word256) (minBps maxBps : UInt16)
    (coefficient : Word256) : Except GovernanceError Word256 := do
  let p ← QuorumParams.ofRaw minBps maxBps coefficient
  p.quorumVotes ⟨againstVotes, totalSupply⟩

end DynamicQuorum
