/-
  DynamicQuorum/Proofs/Indexer/Progress.lean
  ==========================================
  **Votes are only ever added, and what a proposal was created with stays.**

  `Grows` relates a proposal to what later events have made of it.  One edit keeps the relation,
  and it is transitive, so any run keeps it.  The quorum is left out of it unless it is fixed:
  that a dynamic one never falls does not follow from one edit at a time, but from both ends
  being in sync and the votes against having grown in between.
-/
import DynamicQuorum.Proofs.Indexer.Sync
import DynamicQuorum.Proofs.Proposal.Count
import DynamicQuorum.Proofs.Proposal.Sway

namespace DynamicQuorum

structure Founding where
  id : UInt64
  proposer : Address
  createdBlock : BlockNumber
  startBlock : BlockNumber
  endBlock : BlockNumber
  updatePeriodEnd : BlockNumber
  voteSnapshotBlock : BlockNumber
  totalSupply : Word256
  quorumParams : Option QuorumParams
  onTimelockV1 : Bool
deriving DecidableEq

namespace Proposal

variable {p q r : Proposal} {e : Event}

def founding (p : Proposal) : Founding where
  id := p.id
  proposer := p.proposer
  createdBlock := p.createdBlock
  startBlock := p.startBlock
  endBlock := p.endBlock
  updatePeriodEnd := p.updatePeriodEnd
  voteSnapshotBlock := p.voteSnapshotBlock
  totalSupply := p.totalSupply
  quorumParams := p.quorumParams
  onTimelockV1 := p.onTimelockV1

/-- The proposal `q` may be what later events have made of `p`. -/
structure Grows (p q : Proposal) : Prop where
  founding : q.founding = p.founding
  tallies : ∀ kind, (p.tally kind).toNat ≤ (q.tally kind).toNat
  voters : p.voters.toList ⊆ q.voters.toList
  fixed : p.quorumParams = none → q.quorumVotes = p.quorumVotes

theorem Grows.refl (p : Proposal) : p.Grows p :=
  ⟨rfl, fun _ => Nat.le_refl _, fun _ hv => hv, fun _ => rfl⟩

theorem Grows.trans (h : p.Grows q) (h' : q.Grows r) : p.Grows r := by
  have hparams : q.quorumParams = p.quorumParams := congrArg Founding.quorumParams h.founding
  refine ⟨h'.founding.trans h.founding, ?_, ?_, ?_⟩
  · intro kind
    exact Nat.le_trans (h.tallies kind) (h'.tallies kind)
  · intro v hv
    exact h'.voters (h.voters hv)
  · intro hfixed
    rw [h'.fixed (hparams.trans hfixed), h.fixed hfixed]

theorem founding_edits (h : e.Edits p q) : q.founding = p.founding := by
  cases h with
  | ballot named count =>
    obtain ⟨-, tally, quorum, -, -, rfl⟩ := countBallot_eq_ok.mp count
    rfl
  | lifecycle kind =>
    obtain ⟨objectionEnd, eta, status, hf⟩ := Event.lifecycle?_frame kind p
    rw [hf]
    rfl

theorem voters_edits (h : e.Edits p q) : p.voters.toList ⊆ q.voters.toList := by
  cases h with
  | ballot named count =>
    intro v hv
    have hvoted : q.hasVoted v = true :=
      (hasVoted_countBallot count v).mpr (.inr (decide_eq_true hv))
    exact of_decide_eq_true hvoted
  | lifecycle kind =>
    obtain ⟨objectionEnd, eta, status, hf⟩ := Event.lifecycle?_frame kind p
    rw [hf]
    intro v hv
    exact hv

theorem Grows.of_edits (h : e.Edits p q) : p.Grows q := by
  refine ⟨founding_edits h, ?_, voters_edits h, h.quorumVotes⟩
  intro kind
  rw [h.toNat_tally]
  omega

/-- Between two moments at which it is in sync, the quorum does not fall. -/
theorem Grows.quorumVotes (h : p.Grows q) (hp : p.InSync) (hq : q.InSync) :
    p.quorumVotes.toNat ≤ q.quorumVotes.toNat ∧
      (p.quorumParams = none ∨ q.againstVotes = p.againstVotes →
        q.quorumVotes = p.quorumVotes) := by
  have hparams : q.quorumParams = p.quorumParams := congrArg Founding.quorumParams h.founding
  have hsupply : q.totalSupply = p.totalSupply := congrArg Founding.totalSupply h.founding
  constructor
  · exact hp.quorumVotes_le hq hparams hsupply (h.tallies .against) h.fixed
  · rintro (hfixed | hagainst)
    · exact h.fixed hfixed
    · exact hp.quorumVotes_eq hq hparams hsupply hagainst h.fixed

end Proposal

namespace Indexer

variable {s t : Indexer} {events : List LoggedEvent} {id : UInt64} {p q : Proposal}

theorem Accepts.grows (h : Accepts s events t) (found : s.proposal? id = some p) :
    ∃ q, t.proposal? id = some q ∧ p.Grows q :=
  h.kept (fun _ _ _ edit hp => hp.trans (.of_edits edit)) found (.refl p)

/-- **Progress is monotone.**  Take a proposal that is stored in any reachable state, and let any
    further events come, accepted or refused.  It is still stored under its id, with all that it
    was created with; no tally has fallen and no voter is gone; and its quorum has not fallen
    either, nor moved at all if it is fixed or the votes against are the same. -/
theorem progress_is_monotone (start : Initial s) (log more : List LoggedEvent)
    (stored : p ∈ (handleEach s log).proposals.toList) :
    ∃ q, (handleEach (handleEach s log) more).proposal? p.id = some q ∧
      q.founding = p.founding ∧
      p.forVotes.toNat ≤ q.forVotes.toNat ∧
      p.againstVotes.toNat ≤ q.againstVotes.toNat ∧
      p.abstainVotes.toNat ≤ q.abstainVotes.toNat ∧
      p.voters.toList ⊆ q.voters.toList ∧
      p.quorumVotes.toNat ≤ q.quorumVotes.toNat ∧
      (p.quorumParams = none ∨ q.againstVotes = p.againstVotes →
        q.quorumVotes = p.quorumVotes) := by
  have hbefore := accepts_accepted s log
  have hafter := accepts_accepted (handleEach s log) more
  have found : (handleEach s log).proposal? p.id = some p :=
    Registry.get?_eq_some.mpr ⟨stored, rfl⟩
  obtain ⟨q, found', hq⟩ := hafter.grows found
  have hrun := accepts_append.mpr ⟨_, hbefore, hafter⟩
  obtain ⟨hquorum, hsame⟩ := hq.quorumVotes (hbefore.inSync start found) (hrun.inSync start found')
  exact ⟨q, found', hq.founding, hq.tallies .for, hq.tallies .against, hq.tallies .abstain,
    hq.voters, hquorum, hsame⟩

/-- A floor of zero, two votes and a veto come after the first vote. -/
theorem progress_is_monotone_trial :
    ∃ p q, p ∈ (handleEach (withHistory trialHistory)
        [trialCreation, trialVote 1 .against 40]).proposals.toList ∧
      (handleEach (handleEach (withHistory trialHistory) [trialCreation, trialVote 1 .against 40])
        [⟨31, 0, .minQuorumSet .zero .zero⟩, trialVote 2 .against 60, trialVote 2 .for 5,
          ⟨32, 0, .proposalVetoed 1⟩]).proposal? 1 = some q ∧
      p.quorumVotes = .ofUInt64 190 ∧ p.quorumVotes.toNat ≤ q.quorumVotes.toNat ∧
      q.founding = p.founding := by
  have hstored : (handleEach (withHistory trialHistory)
      [trialCreation, trialVote 1 .against 40]).proposals.toList.map (·.quorumVotes) =
        [.ofUInt64 190] := by decide +kernel
  obtain ⟨p, hp, hquorum⟩ := List.map_eq_singleton_iff.mp hstored
  have stored : p ∈ (handleEach (withHistory trialHistory)
      [trialCreation, trialVote 1 .against 40]).proposals.toList := by
    rw [hp]
    exact List.mem_singleton_self p
  obtain ⟨q, found, hfounding, -, -, -, -, hle, -⟩ := progress_is_monotone
    (.withHistory trialHistory) [trialCreation, trialVote 1 .against 40]
    [⟨31, 0, .minQuorumSet .zero .zero⟩, trialVote 2 .against 60, trialVote 2 .for 5,
      ⟨32, 0, .proposalVetoed 1⟩] stored
  have hids : (handleEach (withHistory trialHistory)
      [trialCreation, trialVote 1 .against 40]).proposals.toList.map (·.id) = [1] := by
    decide +kernel
  rw [hp, List.map_singleton, List.singleton_inj] at hids
  rw [hids] at found
  exact ⟨p, q, stored, found, hquorum, hle, hfounding⟩

end Indexer

end DynamicQuorum
