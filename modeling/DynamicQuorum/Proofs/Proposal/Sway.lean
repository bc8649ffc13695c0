/-
  DynamicQuorum/Proofs/Proposal/Sway.lean
  =======================================
  **How far more votes of one kind can move the outcome.**

  Two versions of a proposal are compared, of which the second has more votes of one kind.  All
  that the state at a chain position depends on besides the votes is the same in both, so the
  states can only differ once voting has closed, by the verdict.  The verdict moves in one
  direction: more votes against also raise a dynamic quorum, and neither helps the
  proposal; more votes for it leave the quorum alone; abstentions decide nothing.
-/
import DynamicQuorum.Proofs.Proposal.Sync
import DynamicQuorum.Proofs.Quorum.Monotone

namespace DynamicQuorum

/-- How votes of one kind may move the state of a proposal. -/
def VoteSupport.Moves (kind : VoteSupport) (before after : ProposalState) : Prop :=
  after = before ∨
    match kind with
    | .against => before = .succeeded ∧ after = .defeated
    | .for => before = .defeated ∧ after = .succeeded
    | .abstain => False

namespace ProposalStatus

/-- A status that leaves the state to the windows and the votes. -/
def IsOpen (status : ProposalStatus) : Prop := status = .pending ∨ status = .active

/-- The status with no regard to whether a first vote was cast. -/
def settled : ProposalStatus → ProposalStatus
  | .pending => .active
  | status => status

theorem settled_inj {a b : ProposalStatus} (h : a.settled = b.settled) :
    a = b ∨ a.IsOpen ∧ b.IsOpen := by
  cases a <;> cases b <;> simp [settled, IsOpen] at h ⊢

end ProposalStatus

namespace Proposal

variable {p q : Proposal} {kind : VoteSupport} {view : ChainView}

/-! ### What votes leave alone -/

def besidesVotes (p : Proposal) : Proposal :=
  { p with
    forVotes := .zero
    againstVotes := .zero
    abstainVotes := .zero
    quorumVotes := .zero
    status := p.status.settled
    voters := .empty }

theorem besidesVotes_countBallot {b : Ballot} (h : countBallot b p = .ok () q) :
    q.besidesVotes = p.besidesVotes := by
  obtain ⟨-, tally, quorum, -, -, rfl⟩ := countBallot_eq_ok.mp h
  have hstatus : (if p.status = .pending then .active else p.status).settled =
      p.status.settled := by
    cases p.status <;> rfl
  rw [besidesVotes, besidesVotes, withVote, hstatus]

/-- What an event makes of the rest does not depend on the votes. -/
theorem besidesVotes_edits {e : Event} {p' q' : Proposal} (h : q.besidesVotes = p.besidesVotes)
    (hp : e.Edits p p') (hq : e.Edits q q') : q'.besidesVotes = p'.besidesVotes := by
  have hid : q.id = p.id := (congrArg Proposal.id h :)
  cases hp with
  | ballot named count =>
    cases hq with
    | ballot named' count' =>
      rw [besidesVotes_countBallot count, besidesVotes_countBallot count', h]
    | lifecycle kind' => cases kind'
  | @lifecycle _ f _ kind =>
    cases hq with
    | ballot named' count' => cases kind
    | lifecycle kind' =>
      rw [hid] at kind'
      cases kind.symm.trans kind'
      have hf : ∀ r, (f r).besidesVotes = f r.besidesVotes := by
        intro r
        cases e <;> cases kind <;> rfl
      rw [hf, hf, h]

/-! ### The verdict -/

def verdict (p : Proposal) : ProposalState :=
  if p.isDefeated then .defeated else if p.executionEta.isNone then .succeeded else .active

theorem openState_of_besidesVotes (h : q.besidesVotes = p.besidesVotes) (view : ChainView) :
    q.openState view = p.openState view ∨
      p.openState view = p.verdict ∧ q.openState view = q.verdict := by
  have hstart : q.startBlock = p.startBlock := (congrArg startBlock h :)
  have hend : q.endBlock = p.endBlock := (congrArg endBlock h :)
  have hupdate : q.updatePeriodEnd = p.updatePeriodEnd := (congrArg updatePeriodEnd h :)
  have hobjection : q.objectionPeriodEnd = p.objectionPeriodEnd := (congrArg objectionPeriodEnd h :)
  simp only [openState, hstart, hend, hupdate, hobjection]
  cases view.block with
  | none => exact .inl rfl
  | some block =>
    dsimp only
    split
    · exact .inl rfl
    split
    · exact .inl rfl
    split
    · exact .inl rfl
    split
    · exact .inr ⟨rfl, rfl⟩
    · exact .inl rfl

theorem queuedState_of_besidesVotes (h : q.besidesVotes = p.besidesVotes) (view : ChainView) :
    q.queuedState view = p.queuedState view := by
  have heta : q.executionEta = p.executionEta := (congrArg executionEta h :)
  have htimelock : q.onTimelockV1 = p.onTimelockV1 := (congrArg onTimelockV1 h :)
  have hgrace : q.gracePeriod view = p.gracePeriod view := by
    unfold gracePeriod
    rw [htimelock]
  unfold queuedState
  rw [heta, hgrace]

theorem stateAt_of_isOpen (h : p.status.IsOpen) (view : ChainView) :
    p.stateAt view = p.openState view := by
  rcases h with h | h <;> rw [stateAt, h]

/-- The votes show in the state only as the verdict on an open proposal. -/
theorem stateAt_of_besidesVotes (h : q.besidesVotes = p.besidesVotes) (view : ChainView) :
    q.stateAt view = p.stateAt view ∨
      p.status.IsOpen ∧ p.stateAt view = p.verdict ∧ q.stateAt view = q.verdict := by
  have hstatus : q.status.settled = p.status.settled := (congrArg status h :)
  by_cases hp : p.status.IsOpen
  · have hq : q.status.IsOpen := by
      rcases ProposalStatus.settled_inj hstatus with hsame | ⟨hq, -⟩
      · rwa [hsame]
      · exact hq
    rw [stateAt_of_isOpen hq, stateAt_of_isOpen hp]
    exact (openState_of_besidesVotes h view).imp_right fun hverdict => ⟨hp, hverdict⟩
  · -- a closed status decides alone, or with the time of queueing
    left
    rcases ProposalStatus.settled_inj hstatus with hsame | ⟨-, hopen⟩
    · rw [stateAt, stateAt, hsame, queuedState_of_besidesVotes h]
      cases hp' : p.status with
      | pending => exact absurd (.inl hp') hp
      | active => exact absurd (.inr hp') hp
      | queued | cancelled | vetoed | executed => rfl
    · exact absurd hopen hp

theorem isDefeated_iff : p.isDefeated = true ↔
    p.forVotes.toNat ≤ p.againstVotes.toNat ∨ p.forVotes.toNat < p.quorumVotes.toNat := by
  rw [isDefeated, quorumReached, Bool.or_eq_true, Bool.not_eq_true', decide_eq_true_eq,
    decide_eq_false_iff_not, Word256.le_iff, Word256.le_iff, Nat.not_le]

/-! ### The time of queueing -/

def EtaIfQueued (p : Proposal) : Prop := p.status.IsOpen → p.executionEta = none

theorem EtaIfQueued.of_toProposal {a : Announcement} {block : BlockNumber}
    {inForce : Option QuorumParams} (h : a.toProposal block inForce = .ok p) : p.EtaIfQueued := by
  obtain ⟨supply, rfl⟩ | ⟨supply, params, quorum, -, -, -, -, -, rfl⟩ :=
    Announcement.toProposal_cases h
  · exact fun _ => rfl
  · exact fun _ => rfl

/-- Only the event that queues a proposal gives it a time. -/
theorem EtaIfQueued.edits {e : Event} (hp : p.EtaIfQueued) (h : e.Edits p q) : q.EtaIfQueued := by
  cases h with
  | ballot named count =>
    obtain ⟨-, tally, quorum, -, -, rfl⟩ := countBallot_eq_ok.mp count
    intro hopen
    refine hp ?_
    change (if p.status = .pending then .active else p.status).IsOpen at hopen
    split at hopen
    next hpending => exact .inl hpending
    next => exact hopen
  | lifecycle kind =>
    cases e <;> cases kind
    · exact hp
    all_goals rintro (⟨⟨⟩⟩ | ⟨⟨⟩⟩)

/-! ### More votes of one kind -/

/-- The proposal `q` is `p` with more votes of one kind, and with what follows from them. -/
structure Swayed (kind : VoteSupport) (p q : Proposal) : Prop where
  besides : q.besidesVotes = p.besidesVotes
  fixed : p.quorumParams = none → q.quorumVotes = p.quorumVotes
  raised : (p.tally kind).toNat ≤ (q.tally kind).toNat
  others : ∀ other, other ≠ kind → q.tally other = p.tally other

theorem Swayed.of_countBallot {b : Ballot} (h : countBallot b p = .ok () q) :
    Swayed b.support p q := by
  refine ⟨besidesVotes_countBallot h, fun hfixed => countBallot_quorumVotes hfixed h, ?_,
    fun other hother => ?_⟩
  · rw [toNat_tally_countBallot h]
    omega
  · apply Word256.toNat_injective
    rw [toNat_tally_countBallot h, if_neg hother, Nat.add_zero]

/-- Further events, the same on both sides, keep the relation. -/
theorem Swayed.edits {e : Event} {p' q' : Proposal} (h : Swayed kind p q) (hp : e.Edits p p')
    (hq : e.Edits q q') : Swayed kind p' q' := by
  have hparams : q.quorumParams = p.quorumParams := (congrArg Proposal.quorumParams h.besides :)
  have hfixed : p'.quorumParams = none → q'.quorumVotes = p'.quorumVotes := by
    intro hnone
    rw [hp.quorumParams] at hnone
    rw [hp.quorumVotes hnone, hq.quorumVotes (hparams.trans hnone), h.fixed hnone]
  refine ⟨besidesVotes_edits h.besides hp hq, hfixed, ?_, fun other hother => ?_⟩
  · rw [hp.toNat_tally, hq.toNat_tally]
    exact Nat.add_le_add_right h.raised _
  · apply Word256.toNat_injective
    rw [hp.toNat_tally, hq.toNat_tally, h.others other hother]

/-! ### The direction of the verdict -/

/-- The quorum of more votes against is not lower. -/
theorem InSync.quorumVotes_le (hp : p.InSync) (hq : q.InSync)
    (hparams : q.quorumParams = p.quorumParams) (hsupply : q.totalSupply = p.totalSupply)
    (hagainst : p.againstVotes.toNat ≤ q.againstVotes.toNat)
    (hfixed : p.quorumParams = none → q.quorumVotes = p.quorumVotes) :
    p.quorumVotes.toNat ≤ q.quorumVotes.toNat := by
  cases hdynamic : p.quorumParams with
  | none => rw [hfixed hdynamic]
  | some params =>
    obtain ⟨-, -, hvotes⟩ := hp params hdynamic
    obtain ⟨-, -, hvotes'⟩ := hq params (hparams.trans hdynamic)
    rw [snapshot] at hvotes hvotes'
    rw [hsupply] at hvotes'
    exact (QuorumParams.AtMost.refl params).quorumVotes_le hagainst hvotes hvotes'

/-- The quorum of more votes against is not lower, and that of the same votes is the same. -/
theorem Swayed.quorumVotes (h : Swayed kind p q) (hp : p.InSync) (hq : q.InSync) :
    (p.againstVotes.toNat ≤ q.againstVotes.toNat → p.quorumVotes.toNat ≤ q.quorumVotes.toNat) ∧
      (q.againstVotes = p.againstVotes → q.quorumVotes = p.quorumVotes) := by
  have hparams : q.quorumParams = p.quorumParams := (congrArg Proposal.quorumParams h.besides :)
  have hsupply : q.totalSupply = p.totalSupply := (congrArg Proposal.totalSupply h.besides :)
  constructor
  · intro hagainst
    exact hp.quorumVotes_le hq hparams hsupply hagainst h.fixed
  · intro hsame
    exact hp.quorumVotes_eq hq hparams hsupply hsame h.fixed

/-- **More votes of one kind move the outcome in their own direction only.** -/
theorem Swayed.moves (h : Swayed kind p q) (hp : p.InSync) (hq : q.InSync) (heta : p.EtaIfQueued)
    (view : ChainView) : kind.Moves (p.stateAt view) (q.stateAt view) := by
  obtain ⟨hmono, hsame⟩ := h.quorumVotes hp hq
  rcases stateAt_of_besidesVotes h.besides view with hstate | ⟨hopen, hverdict, hverdict'⟩
  · exact .inl hstate
  have hnone : p.executionEta = none := heta hopen
  have hnone' : q.executionEta = none := (congrArg executionEta h.besides :).trans hnone
  rw [hverdict, hverdict', verdict, verdict, hnone, hnone']
  cases kind with
  | against =>
    have hfor : q.forVotes = p.forVotes := h.others .for nofun
    have hraised : p.againstVotes.toNat ≤ q.againstVotes.toNat := h.raised
    have hquorum := hmono hraised
    -- more votes against, and a quorum that may have risen with them
    have hdefeated : p.isDefeated = true → q.isDefeated = true := by
      rw [isDefeated_iff, isDefeated_iff, hfor]
      omega
    cases hd : p.isDefeated with
    | false => cases q.isDefeated <;> simp [VoteSupport.Moves]
    | true => simp [VoteSupport.Moves, hdefeated hd]
  | «for» =>
    have hagainst : q.againstVotes = p.againstVotes := h.others .against nofun
    have hraised : p.forVotes.toNat ≤ q.forVotes.toNat := h.raised
    have hquorum := hsame hagainst
    -- more votes for, and the same quorum
    have hdefeated : q.isDefeated = true → p.isDefeated = true := by
      rw [isDefeated_iff, isDefeated_iff, hagainst, hquorum]
      omega
    cases hd : q.isDefeated with
    | false => cases p.isDefeated <;> simp [VoteSupport.Moves]
    | true => simp [VoteSupport.Moves, hdefeated hd]
  | abstain =>
    have hfor : q.forVotes = p.forVotes := h.others .for nofun
    have hagainst : q.againstVotes = p.againstVotes := h.others .against nofun
    rw [isDefeated, isDefeated, quorumReached, quorumReached, hfor, hagainst, hsame hagainst]
    exact .inl rfl

end Proposal

end DynamicQuorum
