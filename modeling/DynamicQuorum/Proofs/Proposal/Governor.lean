/-
  DynamicQuorum/Proofs/Proposal/Governor.lean
  ===========================================
  **What the version of the governor changes.**

  A governor with update and objection periods shows two states that no other one shows, and gives
  a queued proposal more time unless it lies on the first timelock.  Outside both periods an open
  proposal is in the same state under either governor, so the verdict does not depend on the
  version.  The periods may overlap, be empty or end before they start.
-/
import DynamicQuorum.Proofs.Proposal.Sway

namespace DynamicQuorum

/-- The same position under a governor with the two periods, or under one without them. -/
def ChainView.under (view : ChainView) (daoV3 : Bool) : ChainView :=
  { view with daoV3 }

@[simp] theorem ChainView.block_under (view : ChainView) (daoV3 : Bool) :
    (view.under daoV3).block = view.block := rfl

@[simp] theorem ChainView.timestamp_under (view : ChainView) (daoV3 : Bool) :
    (view.under daoV3).timestamp = view.timestamp := rfl

@[simp] theorem ChainView.daoV3_under (view : ChainView) (daoV3 : Bool) :
    (view.under daoV3).daoV3 = daoV3 := rfl

namespace Proposal

variable {p : Proposal} {view other : ChainView} {block : BlockNumber} {now later eta : UInt64}

/-! ### Open proposals -/

def InUpdatePeriod (p : Proposal) (block : BlockNumber) : Prop :=
  0 < p.updatePeriodEnd ∧ block ≤ p.updatePeriodEnd

def InObjectionPeriod (p : Proposal) (block : BlockNumber) : Prop :=
  p.startBlock < block ∧ p.endBlock < block ∧
    0 < p.objectionPeriodEnd ∧ block ≤ p.objectionPeriodEnd

theorem openState_of_inUpdatePeriod (hblock : view.block = some block)
    (h : p.InUpdatePeriod block) : p.openState (view.under true) = .updatable := by
  unfold openState
  rw [ChainView.block_under, hblock]
  exact if_pos ⟨rfl, h⟩

/-- Without the periods, the time between the votes and the end of objections is one of voting. -/
theorem openState_of_inObjectionPeriod (hblock : view.block = some block)
    (h : p.InObjectionPeriod block) :
    p.openState (view.under false) = .active ∧
      (¬ p.InUpdatePeriod block →
        p.openState (view.under true) = .objectionPeriod) := by
  obtain ⟨hstarted, hended, hperiod, hle⟩ := h
  unfold openState
  constructor
  · simp [hblock, UInt64.not_le.mpr hstarted, UInt64.not_lt.mpr hle]
  · intro hedited
    simp only [InUpdatePeriod] at hedited
    simp [hblock, hedited, UInt64.not_le.mpr hstarted, hended, hperiod, hle]

theorem openState_of_outside (hblock : view.block = some block)
    (hupdate : ¬ p.InUpdatePeriod block) (hobjection : ¬ p.InObjectionPeriod block) :
    p.openState (view.under true) = p.openState (view.under false) := by
  simp only [InUpdatePeriod] at hupdate
  unfold openState
  simp only [ChainView.block_under, ChainView.daoV3_under, hblock, hupdate]
  -- the guard before the objection period knows that voting has started
  by_cases hpending : block ≤ p.startBlock
  · simp [hpending]
  · have hunobjected : ¬ (p.endBlock < block ∧ 0 < p.objectionPeriodEnd ∧
        block ≤ p.objectionPeriodEnd) := by
      intro h
      exact hobjection ⟨UInt64.not_le.mp hpending, h⟩
    simp [hunobjected]

theorem openState_of_block_none (hblock : view.block = none) :
    p.openState view = .undetermined := by
  unfold openState
  rw [hblock]

/-- The state under the two governors differs in one of the two periods only. -/
theorem openState_cases (p : Proposal) (view : ChainView) :
    p.openState (view.under true) = p.openState (view.under false) ∨
      (∃ block, view.block = some block ∧ p.InUpdatePeriod block) ∧
        p.openState (view.under true) = .updatable ∨
      p.openState (view.under true) = .objectionPeriod ∧
        p.openState (view.under false) = .active := by
  cases hblock : view.block with
  | none =>
    have hnone : ∀ daoV3, (view.under daoV3).block = none := fun _ => hblock
    left
    rw [openState_of_block_none (hnone true), openState_of_block_none (hnone false)]
  | some block =>
    -- the two versions differ within the periods only
    by_cases hupdate : p.InUpdatePeriod block
    · exact .inr (.inl ⟨⟨block, rfl, hupdate⟩, openState_of_inUpdatePeriod hblock hupdate⟩)
    by_cases hobjection : p.InObjectionPeriod block
    · obtain ⟨hold, hnew⟩ := openState_of_inObjectionPeriod hblock hobjection
      exact .inr (.inr ⟨hnew hupdate, hold⟩)
    · exact .inl (openState_of_outside hblock hupdate hobjection)

/-! ### Queued proposals -/

theorem stateAt_of_queued (h : p.status = .queued) (view : ChainView) :
    p.stateAt view = p.queuedState view := by
  rw [stateAt, h]

theorem queuedState_of_some (hnow : view.timestamp = some now) (heta : p.executionEta = some eta) :
    p.queuedState view =
      if min lastSecond (eta.toNat + p.gracePeriod view) ≤ now.toNat
        then .expired else .queued := by
  unfold queuedState
  rw [hnow, heta]

/-- A queued proposal expires with its grace period, at the last second at the latest. -/
theorem queuedState_eq_expired :
    p.queuedState view = .expired ↔ ∃ now eta, view.timestamp = some now ∧
      p.executionEta = some eta ∧
        min lastSecond (eta.toNat + p.gracePeriod view) ≤ now.toNat := by
  constructor
  · intro h
    cases hnow : view.timestamp with
    | none => simp [queuedState, hnow] at h
    | some now =>
      cases heta : p.executionEta with
      | none => simp [queuedState, hnow, heta] at h
      | some eta =>
        rw [queuedState_of_some hnow heta] at h
        refine ⟨now, eta, rfl, rfl, ?_⟩
        by_contra hearly
        rw [if_neg hearly] at h
        cases h
  · rintro ⟨now, eta, hnow, heta, hover⟩
    rw [queuedState_of_some hnow heta, if_pos hover]

theorem queuedState_of_timestamp_none (h : view.timestamp = none) :
    p.queuedState view = .undetermined := by
  unfold queuedState
  rw [h]

theorem queuedState_of_eta_none (h : p.executionEta = none) :
    p.queuedState view = .undetermined := by
  unfold queuedState
  rw [h]
  cases view.timestamp with
  | none => rfl
  | some now => rfl

/-- More time, or less grace, can only move a queued proposal from queued to expired. -/
theorem queuedState_later (hnow : view.timestamp = some now)
    (hlater : other.timestamp = some later) (hle : now ≤ later)
    (hgrace : p.gracePeriod other ≤ p.gracePeriod view) :
    p.queuedState other = p.queuedState view ∨
      p.queuedState view = .queued ∧ p.queuedState other = .expired := by
  cases heta : p.executionEta with
  | none =>
    left
    rw [queuedState_of_eta_none heta, queuedState_of_eta_none heta]
  | some eta =>
    rw [queuedState_of_some hnow heta, queuedState_of_some hlater heta]
    have hseconds : now.toNat ≤ later.toNat := UInt64.le_iff_toNat_le.mp hle
    by_cases hover : min lastSecond (eta.toNat + p.gracePeriod view) ≤ now.toNat
    · have hstill : min lastSecond (eta.toNat + p.gracePeriod other) ≤ later.toNat := by
        omega
      left
      rw [if_pos hover, if_pos hstill]
    · rw [if_neg hover]
      by_cases hsince : min lastSecond (eta.toNat + p.gracePeriod other) ≤ later.toNat
      · right
        exact ⟨rfl, if_pos hsince⟩
      · left
        exact if_neg hsince

theorem gracePeriodLegacy_le (p : Proposal) (view : ChainView) :
    gracePeriodLegacy ≤ p.gracePeriod view := by
  unfold gracePeriod
  split
  · decide
  · exact Nat.le_refl _

theorem gracePeriod_under_false (p : Proposal) (view : ChainView) :
    p.gracePeriod (view.under false) = gracePeriodLegacy := by
  simp [gracePeriod]

theorem queuedState_under_of_timelockV1 (h : p.onTimelockV1 = true) (view : ChainView) :
    p.queuedState (view.under true) = p.queuedState (view.under false) := by
  unfold queuedState gracePeriod
  simp [h]

/-- A queued proposal differs by its grace period only, and not on the first timelock. -/
theorem queuedState_under (p : Proposal) (view : ChainView) :
    p.queuedState (view.under true) = p.queuedState (view.under false) ∨
      p.queuedState (view.under true) = .queued ∧ p.queuedState (view.under false) = .expired ∧
        p.onTimelockV1 = false := by
  cases htimelock : p.onTimelockV1 with
  | true => exact .inl (queuedState_under_of_timelockV1 htimelock view)
  | false =>
    cases hnow : view.timestamp with
    | none =>
      have hnone : ∀ daoV3, (view.under daoV3).timestamp = none := fun _ => hnow
      left
      rw [queuedState_of_timestamp_none (hnone true), queuedState_of_timestamp_none (hnone false)]
    | some now =>
      have hsome : ∀ daoV3, (view.under daoV3).timestamp = some now := fun _ => hnow
      have hgrace : p.gracePeriod (view.under false) ≤ p.gracePeriod (view.under true) := by
        rw [gracePeriod_under_false]
        exact p.gracePeriodLegacy_le _
      rcases queuedState_later (hsome true) (hsome false) (UInt64.le_refl now) hgrace with
        hsame | ⟨hqueued, hexpired⟩
      · exact .inl hsame.symm
      · exact .inr ⟨hqueued, hexpired, rfl⟩

end Proposal

open Proposal

/-- **The version of the governor never changes a verdict.**  Let `x` be the state at a position
    with update and objection periods, and `y` the one without.  An open proposal is in two
    different states only if `x` tells of one of the two periods, and a verdict is the
    same behind both.  A queued one is in two different states only if `y` has expired already, off
    the first timelock.  Time moves a queued proposal to the expired ones and never back, at the
    second that its ETA and its grace period add up to, or at the last one there is. -/
theorem version_changes_periods_and_grace_only :
    (∀ (p : Proposal) (view : ChainView) (x y : ProposalState),
      p.stateAt (view.under true) = x → p.stateAt (view.under false) = y →
      (p.status.IsOpen →
        (x ≠ y →
          x = .updatable ∧ (∃ block, view.block = some block ∧ p.InUpdatePeriod block) ∨
            x = .objectionPeriod ∧ y = .active) ∧
        (∀ block, view.block = some block → ¬ p.InUpdatePeriod block →
          ¬ p.InObjectionPeriod block → x = y) ∧
        (x = .succeeded ∨ x = .defeated → y = x) ∧
        (y = .succeeded ∨ y = .defeated → x = y ∨ x = .updatable)) ∧
      (p.status = .queued → x ≠ y →
        x = .queued ∧ y = .expired ∧ p.onTimelockV1 = false)) ∧
    (∀ (p : Proposal) (view : ChainView), p.status = .queued →
      (p.stateAt view = .expired ↔ ∃ now eta, view.timestamp = some now ∧
        p.executionEta = some eta ∧
          min (2 ^ 64 - 1) (eta.toNat + p.gracePeriod view) ≤ now.toNat) ∧
      ∀ (other : ChainView) (now later : UInt64), other.daoV3 = view.daoV3 →
        view.timestamp = some now → other.timestamp = some later → now ≤ later →
        p.stateAt other = p.stateAt view ∨
          p.stateAt view = .queued ∧ p.stateAt other = .expired) := by
  constructor
  · rintro p view x y rfl rfl
    constructor
    · intro hopen
      rw [stateAt_of_isOpen hopen, stateAt_of_isOpen hopen]
      refine ⟨?_, ?_, ?_, ?_⟩
      · intro hne
        rcases p.openState_cases view with hsame | ⟨hperiod, hupdatable⟩ | hobjection
        · exact absurd hsame hne
        · exact .inl ⟨hupdatable, hperiod⟩
        · exact .inr hobjection
      · intro block
        exact openState_of_outside
      · intro hverdict
        rcases p.openState_cases view with hsame | ⟨-, hupdatable⟩ | ⟨hobjection, -⟩
        · exact hsame.symm
        · simp [hupdatable] at hverdict
        · simp [hobjection] at hverdict
      · intro hverdict
        rcases p.openState_cases view with hsame | ⟨-, hupdatable⟩ | ⟨-, hactive⟩
        · exact .inl hsame
        · exact .inr hupdatable
        · simp [hactive] at hverdict
    · intro hqueued hne
      rw [stateAt_of_queued hqueued, stateAt_of_queued hqueued] at hne ⊢
      rcases p.queuedState_under view with hsame | hstates
      · exact absurd hsame hne
      · exact hstates
  · intro p view hqueued
    rw [stateAt_of_queued hqueued]
    refine ⟨queuedState_eq_expired, ?_⟩
    intro other now later hv3 hnow hlater hle
    rw [stateAt_of_queued hqueued]
    have hgrace : p.gracePeriod other = p.gracePeriod view := by
      unfold gracePeriod
      rw [hv3]
    exact queuedState_later hnow hlater hle hgrace.le

def trialPeriods : Proposal :=
  { Proposal.create 1 .zero 5 10 20 .zero with updatePeriodEnd := 12, objectionPeriodEnd := 25 }

/-- A queued proposal whose longer grace period would end behind the last second. -/
def trialQueued : Proposal :=
  { Proposal.create 2 .zero 5 10 20 .zero with
    status := .queued
    executionEta := some (.ofNat (2 ^ 64 - 1 - 15 * day)) }

/-- A block among the objections and one behind them, and the last two seconds there are. -/
theorem version_changes_periods_and_grace_only_trial :
    (trialPeriods.stateAt (.under ⟨some 22, none, false⟩ true) = .objectionPeriod ∧
      trialPeriods.stateAt (.under ⟨some 22, none, false⟩ false) = .active) ∧
    trialPeriods.stateAt (.under ⟨some 26, none, false⟩ true) = .defeated ∧
    (trialQueued.stateAt (.under ⟨none, some (.ofNat (2 ^ 64 - 2)), true⟩ true) = .queued ∧
      trialQueued.stateAt (.under ⟨none, some (.ofNat (2 ^ 64 - 2)), true⟩ false) = .expired) ∧
    trialQueued.stateAt ⟨none, some (.ofNat (2 ^ 64 - 1)), true⟩ = .expired := by
  obtain ⟨hversion, htime⟩ := version_changes_periods_and_grace_only
  refine ⟨?_, ?_, ?_, ?_⟩
  · obtain ⟨hopen, -⟩ := hversion trialPeriods ⟨some 22, none, false⟩ _ _ rfl rfl
    obtain ⟨hperiods, -⟩ := hopen (.inl rfl)
    rcases hperiods (by decide) with ⟨hupdatable, -⟩ | hstates
    · exact absurd hupdatable (by decide)
    · exact hstates
  · obtain ⟨hopen, -⟩ := hversion trialPeriods ⟨some 26, none, false⟩ _ _ rfl rfl
    obtain ⟨-, houtside, -, -⟩ := hopen (.inl rfl)
    rw [houtside 26 rfl (fun h => absurd h.2 (by decide)) (fun h => absurd h.2.2.2 (by decide))]
    decide
  · obtain ⟨-, hqueued⟩ := hversion trialQueued ⟨none, some (.ofNat (2 ^ 64 - 2)), true⟩
      _ _ rfl rfl
    obtain ⟨hold, hnew, -⟩ := hqueued rfl (by decide)
    exact ⟨hold, hnew⟩
  · obtain ⟨-, hlater⟩ := htime trialQueued ⟨none, some (.ofNat (2 ^ 64 - 2)), true⟩ rfl
    rcases hlater ⟨none, some (.ofNat (2 ^ 64 - 1)), true⟩ _ _ rfl rfl rfl (by decide) with
      hsame | ⟨-, hexpired⟩
    · exact absurd hsame (by decide)
    · exact hexpired

end DynamicQuorum
