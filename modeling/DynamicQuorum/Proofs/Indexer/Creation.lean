/-
  DynamicQuorum/Proofs/Indexer/Creation.lean
  ==========================================
  **What the announcement of a proposal leads to.**

  The announcement, the parameters in force and the ids in use decide everything.  With a supply
  and dynamic parameters the proposal takes these and their quorum without votes, which is the
  floor; the parameters must be sound for that, and the floor in votes a word.  Otherwise it
  keeps the reported quorum, and nobody looks at the parameters.  Only then is the id looked at,
  so an announcement that is at fault twice is refused for its quorum.
-/
import DynamicQuorum.Proofs.Indexer.Run
import DynamicQuorum.Proofs.Proposal.Acceptance
import DynamicQuorum.Proofs.Quorum.Bounds

namespace DynamicQuorum

open InPlace

namespace Announcement

variable {a : Announcement} {block : BlockNumber} {inForce : Option QuorumParams}
  {params : QuorumParams} {supply : Word256}

/-! ### The formula -/

/-- The quorum and the parameters of a new proposal, over unbounded numbers. -/
def opening (a : Announcement) (inForce : Option QuorumParams) :
    Except GovernanceError (Nat × Option QuorumParams) :=
  match a.totalSupply, inForce with
  | some supply, some params =>
    if params.coefficient = .zero then .ok (a.quorumVotes.toNat, none)
    else if params.maxBps.toNat < params.minBps.toNat then
      .error (.invalidParameters (.inverted params.maxBps.toNat params.minBps.toNat))
    else if 2 ^ 256 ≤ params.minBps.toNat * supply.toNat then .error (.overflow .votesOfShare)
    else .ok (params.minBps.toNat * supply.toNat / 10000, some params)
  | _, _ => .ok (a.quorumVotes.toNat, none)

def opened (a : Announcement) (block : BlockNumber) (quorum : Word256)
    (params : Option QuorumParams) : Proposal where
  id := a.id
  proposer := a.proposer
  createdBlock := block
  startBlock := a.startBlock
  endBlock := a.endBlock
  updatePeriodEnd := a.updatePeriodEnd
  objectionPeriodEnd := 0
  voteSnapshotBlock := a.voteSnapshotBlock.getD a.startBlock
  forVotes := .zero
  againstVotes := .zero
  abstainVotes := .zero
  totalSupply := a.totalSupply.getD .zero
  quorumVotes := quorum
  quorumParams := params
  executionEta := none
  status := .pending
  onTimelockV1 := a.onTimelockV1
  voters := .empty

/-! ### The computation follows the formula -/

/-- Dynamic parameters are validated before their floor is converted. -/
theorem withDynamicQuorum_draft (hdynamic : params.isDynamic)
    (hsupply : a.totalSupply = some supply) :
    (a.draft block).withDynamicQuorum supply params =
      if params.maxBps.toNat < params.minBps.toNat then
        .error (.invalidParameters (.inverted params.maxBps.toNat params.minBps.toNat))
      else (params.minVotes supply).map (a.opened block · (some params)) := by
  by_cases hordered : params.IsOrdered
  · -- without a vote against, the quorum is the floor
    have hfloor := hordered.quorumVotes_eq_minVotes supply
    rw [if_neg (Nat.not_lt.mpr hordered)]
    cases hvotes : params.minVotes supply with
    | error cause =>
      apply (Proposal.withDynamicQuorum_eq_error hordered).mpr
      exact Proposal.dynamicQuorumAt_eq_error.mpr
        ⟨params, Proposal.dynamicParams?_eq_some.mpr ⟨rfl, hdynamic⟩, hfloor.trans hvotes⟩
    | ok votes =>
      refine Proposal.withDynamicQuorum_eq_ok.mpr ⟨hordered, some votes,
        (Proposal.dynamicQuorumAt_of_some rfl hdynamic).mpr ⟨votes, rfl, hfloor.trans hvotes⟩, ?_⟩
      change a.opened block votes (some params) = _
      rw [opened, hsupply]
      rfl
  · rw [if_pos (Nat.lt_of_not_le hordered)]
    exact Proposal.withDynamicQuorum_of_not_isOrdered hordered

/-- A proposal is opened with the quorum that plain numbers give, or refused with their error. -/
theorem toProposal_eq (a : Announcement) (block : BlockNumber) (inForce : Option QuorumParams) :
    a.toProposal block inForce =
      (a.opening inForce).map fun due => a.opened block (.ofNat due.1) due.2 := by
  have hfixed : a.opened block (.ofNat a.quorumVotes.toNat) none =
      { a.draft block with totalSupply := a.totalSupply.getD .zero } := by
    rw [Word256.ofNat_toNat]
    rfl
  unfold toProposal opening
  cases hsupply : a.totalSupply with
  | none =>
    rw [hsupply] at hfixed
    exact congrArg Except.ok hfixed.symm
  | some supply =>
    rw [hsupply] at hfixed
    cases inForce with
    | none => exact congrArg Except.ok hfixed.symm
    | some params =>
      by_cases hflat : params.coefficient = .zero
      · -- parameters without a slope are not kept
        have hstatic : ¬ params.isDynamic := fun h => QuorumParams.isDynamic_iff.mp h hflat
        simp only [Option.filter_some, if_neg hstatic, if_pos hflat]
        exact congrArg Except.ok hfixed.symm
      · have hdynamic := QuorumParams.isDynamic_iff.mpr hflat
        simp only [Option.filter_some, if_pos hdynamic, if_neg hflat]
        rw [withDynamicQuorum_draft hdynamic hsupply, QuorumParams.minVotes, votesOfShare_eq]
        split
        · rfl
        · split
          · rfl
          · rfl

theorem toNat_of_opening {quorum : Nat} {due : Option QuorumParams}
    (h : a.opening inForce = .ok (quorum, due)) : (Word256.ofNat quorum).toNat = quorum := by
  unfold opening at h
  split at h
  next supply params _ =>
    split at h
    next =>
      cases h
      rw [Word256.ofNat_toNat]
    split at h
    next => cases h
    split at h
    next => cases h
    next hfits =>
      cases h
      apply Word256.toNat_ofNat_of_lt
      exact Nat.lt_of_le_of_lt (Nat.div_le_self _ 10000) (Nat.lt_of_not_le hfits)
  next =>
    cases h
    rw [Word256.ofNat_toNat]

end Announcement

namespace Indexer

variable {s t : Indexer} {e : LoggedEvent} {a : Announcement} {cause : GovernanceError}

/-! ### Refusals -/

/-- A creation is refused for its quorum, or else for its id. -/
theorem handle_created_eq_error (kind : e.event = .proposalCreated a) :
    handle e s = .error cause t ↔
      (a.toProposal e.block (s.history.paramsAt e.block) = .error cause ∧ t = s) ∨
        ∃ p, a.toProposal e.block (s.history.paramsAt e.block) = .ok p ∧
          (∃ q, s.proposal? a.id = some q) ∧ cause = .proposalExists a.id ∧ t = s := by
  rw [handle_eq_error, kind, apply, bind_run, get_run]
  change (liftM (a.toProposal e.block (s.history.paramsAt e.block)) >>= _ : InPlace _ _ _) s = _ ↔ _
  rw [bind_eq_error, liftM_eq_error]
  refine or_congr_right ?_
  constructor
  · rintro ⟨p, _, hopen, hinsert⟩
    obtain ⟨opened, rfl⟩ := liftM_eq_ok.mp hopen
    rw [insertProposal_eq_error, Announcement.toProposal_id opened] at hinsert
    exact ⟨p, opened, hinsert⟩
  · rintro ⟨p, opened, hstored⟩
    rw [← Announcement.toProposal_id opened] at hstored
    exact ⟨p, s, liftM_eq_ok.mpr ⟨opened, rfl⟩, insertProposal_eq_error.mpr hstored⟩

/-! ### The exact effect -/

/-- **The announcement of a proposal has exactly one effect.**  With a supply and parameters in
    force that have a slope, it is refused if their ceiling lies below their floor, and then if
    their floor times the supply is no word; otherwise the proposal takes the floor as its quorum,
    and the parameters.  In all other cases it takes the reported quorum and no parameters, sound
    or not.  What passes is refused only if its id is in use; under a fresh id one proposal is
    stored, without votes and pending, and all other proposals and the history stay. -/
theorem creation_has_exact_effect (s : Indexer) (a : Announcement) (block : BlockNumber)
    (timestamp : UInt64) :
    (∀ cause, a.opening (s.history.paramsAt block) = .error cause →
      handle ⟨block, timestamp, .proposalCreated a⟩ s = .error cause s) ∧
    (∀ quorum params, a.opening (s.history.paramsAt block) = .ok (quorum, params) →
      (handle ⟨block, timestamp, .proposalCreated a⟩ s = .error (.proposalExists a.id) s ↔
        ∃ p, s.proposal? a.id = some p) ∧
      (s.proposal? a.id = none → ∃ votes t, votes.toNat = quorum ∧
        handle ⟨block, timestamp, .proposalCreated a⟩ s = .ok () t ∧
        t.proposal? a.id = some (a.opened block votes params) ∧
        (∀ id, id ≠ a.id → t.proposal? id = s.proposal? id) ∧
        t.proposals.size = s.proposals.size + 1 ∧
        t.history = s.history)) := by
  constructor
  · intro cause hfault
    -- the proposal is made before its id is looked up
    refine (handle_created_eq_error rfl).mpr (.inl ⟨?_, rfl⟩)
    rw [Announcement.toProposal_eq, hfault]
    rfl
  · intro quorum params hdue
    have hopen : a.toProposal block (s.history.paramsAt block) =
        .ok (a.opened block (.ofNat quorum) params) := by
      rw [Announcement.toProposal_eq, hdue]
      rfl
    constructor
    · constructor
      · intro h
        rcases (handle_created_eq_error rfl).mp h with ⟨hfault, -⟩ | ⟨p, -, stored, -⟩
        · rw [hopen] at hfault
          cases hfault
        · exact stored
      · intro stored
        exact (handle_created_eq_error rfl).mpr (.inr ⟨_, hopen, stored, rfl, rfl⟩)
    · intro fresh
      have hstep : Step ⟨block, timestamp, .proposalCreated a⟩ s
          (s.store (a.opened block (.ofNat quorum) params)).counted := .created rfl fresh hopen
      refine ⟨.ofNat quorum, _, Announcement.toNat_of_opening hdue, handle_eq_ok.mpr hstep,
        ?_, ?_, Registry.size_put fresh, rfl⟩
      · simp [Announcement.opened]
      · intro id hother
        simp [Announcement.opened, hother]

def trialAnnouncement : Announcement where
  id := 1
  proposer := .zero
  startBlock := 25
  endBlock := 35
  updatePeriodEnd := 0
  voteSnapshotBlock := some 22
  quorumVotes := .ofUInt64 7
  totalSupply := some (.ofUInt64 1000)
  onTimelockV1 := false

/-- The proposal takes fifteen percent of the supply; a second one under its id is refused, and
    so is one while the bounds are inverted. -/
theorem creation_has_exact_effect_trial :
    (∃ t, handle ⟨20, 0, .proposalCreated trialAnnouncement⟩ (withHistory trialHistory) = .ok () t ∧
      t.proposal? 1 =
        some (trialAnnouncement.opened 20 (.ofUInt64 150) (trialHistory.paramsAt 20)) ∧
      handle ⟨21, 0, .proposalCreated trialAnnouncement⟩ t = .error (.proposalExists 1) t) ∧
    handle ⟨20, 0, .proposalCreated trialAnnouncement⟩
        (withHistory ⟨[⟨10, Proposal.trialInverted⟩]⟩) =
      .error (.invalidParameters (.inverted 1400 2800))
        (withHistory ⟨[⟨10, Proposal.trialInverted⟩]⟩) := by
  constructor
  · obtain ⟨-, hopens⟩ :=
      creation_has_exact_effect (withHistory trialHistory) trialAnnouncement 20 0
    obtain ⟨-, heffect⟩ := hopens 150 (trialHistory.paramsAt 20) (by decide +kernel)
    obtain ⟨votes, t, hvotes, haccepted, hstored, -, -, hhistory⟩ := heffect rfl
    obtain rfl : votes = .ofUInt64 150 := Word256.toNat_injective (hvotes.trans (by decide))
    obtain ⟨-, hsecond⟩ := creation_has_exact_effect t trialAnnouncement 21 0
    obtain ⟨hexists, -⟩ := hsecond 150 (trialHistory.paramsAt 21)
      (by rw [hhistory]; decide +kernel)
    exact ⟨t, haccepted, hstored, hexists.mpr ⟨_, hstored⟩⟩
  · obtain ⟨hrefused, -⟩ := creation_has_exact_effect
      (withHistory ⟨[⟨10, Proposal.trialInverted⟩]⟩) trialAnnouncement 20 0
    exact hrefused _ (by decide +kernel)

end Indexer

end DynamicQuorum
