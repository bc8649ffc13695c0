/-
  DynamicQuorum/Proposal/Resolution.lean
  ======================================
  **The state of a proposal at a chain position.**

  A proposal that was cancelled, vetoed or executed stays so.  A queued one expires after a
  grace period.  For an open one the windows are tried in order: the update period, the
  time before voting, the objection period, and the time after both voting and
  objections have ended, when the votes decide.
-/
import DynamicQuorum.Proposal.Basic

namespace DynamicQuorum

/-- What is known about the position of the chain, with the time in seconds.  A governor of the
    third version has update and objection periods. -/
structure ChainView where
  block : Option BlockNumber := none
  timestamp : Option UInt64 := none
  daoV3 : Bool := false
deriving DecidableEq, Repr, Inhabited

def day : Nat := 24 * 60 * 60

/-- How long a queued proposal may be executed after its ETA. -/
def gracePeriodV3 : Nat := 21 * day

/-- The grace period of older governors and of the first timelock. -/
def gracePeriodLegacy : Nat := 14 * day

namespace Proposal

def openState (p : Proposal) (view : ChainView) : ProposalState :=
  match view.block with
  | none => .undetermined
  | some block =>
    -- an end at block zero says that there is no such period
    if view.daoV3 ∧ 0 < p.updatePeriodEnd ∧ block ≤ p.updatePeriodEnd then .updatable
    else if block ≤ p.startBlock then .pending
    else if view.daoV3 ∧ p.endBlock < block ∧ 0 < p.objectionPeriodEnd ∧
        block ≤ p.objectionPeriodEnd then .objectionPeriod
    else if p.endBlock < block ∧ p.objectionPeriodEnd < block then
      if p.isDefeated then .defeated
      else if p.executionEta.isNone then .succeeded
      else .active
    else .active

def gracePeriod (p : Proposal) (view : ChainView) : Nat :=
  if view.daoV3 ∧ p.onTimelockV1 = false then gracePeriodV3 else gracePeriodLegacy

def lastSecond : Nat := UInt64.size - 1

def queuedState (p : Proposal) (view : ChainView) : ProposalState :=
  match view.timestamp, p.executionEta with
  | some now, some eta =>
    -- a grace period that would end later is taken to end with the last second
    if min lastSecond (eta.toNat + p.gracePeriod view) ≤ now.toNat then .expired else .queued
  | _, _ => .undetermined

def stateAt (p : Proposal) (view : ChainView) : ProposalState :=
  match p.status with
  | .pending | .active => p.openState view
  | .queued => p.queuedState view
  | .cancelled => .cancelled
  | .vetoed => .vetoed
  | .executed => .executed

end Proposal

end DynamicQuorum
