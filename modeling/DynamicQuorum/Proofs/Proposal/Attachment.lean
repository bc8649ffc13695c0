/-
  DynamicQuorum/Proofs/Proposal/Attachment.lean
  =============================================
  **A dynamic quorum may be attached before the votes or after them.**

  Attached first, the quorum is computed once for the votes so far and then again with each vote
  against.  Attached last, it is computed once, for all of them.  The votes against only grow, and a
  quorum that can be computed for more of them can be computed for fewer, so the last computation
  stands for all that come before it; and it is the last one that is stored.  This is shown for a
  single vote, and goes over to a list of them by induction.
-/
import DynamicQuorum.Proofs.Proposal.Sync
import DynamicQuorum.Proofs.Quorum.Monotone

namespace DynamicQuorum.Proposal

open InPlace

variable {p q r : Proposal} {supply : Word256} {params : QuorumParams} {voter : Address}
  {support : VoteSupport} {votes tally : Word256}

def recordVotes : List (Address × VoteSupport × Word256) → InPlace GovernanceError Proposal Unit
  | [] => return
  | (voter, support, votes) :: rest => do
    recordVote voter support votes
    recordVotes rest

/-! ### The quorum of more votes against, and of fewer -/

theorem dynamicQuorumAt_of_le {against against' : Word256} {quorum' : Option Word256}
    (hle : against.toNat ≤ against'.toNat) (h : p.dynamicQuorumAt against' = .ok quorum') :
    ∃ quorum, p.dynamicQuorumAt against = .ok quorum := by
  rcases dynamicQuorumAt_eq_ok.mp h with ⟨hfixed, -⟩ | ⟨params, votes', hparams, hvotes', -⟩
  · exact ⟨none, dynamicQuorumAt_eq_ok.mpr (.inl ⟨hfixed, rfl⟩)⟩
  · obtain ⟨votes, hvotes⟩ := (QuorumParams.AtMost.refl params).quorumVotes_isOk hle hvotes'
    exact ⟨some votes, dynamicQuorumAt_eq_ok.mpr (.inr ⟨params, votes, hparams, hvotes, rfl⟩)⟩

/-- Either every quorum moves or none does, so the later one decides. -/
theorem getD_dynamicQuorumAt {against against' : Word256} {quorum quorum' : Option Word256}
    (h : p.dynamicQuorumAt against = .ok quorum) (h' : p.dynamicQuorumAt against' = .ok quorum')
    (stored : Word256) : quorum'.getD (quorum.getD stored) = quorum'.getD stored := by
  rcases dynamicQuorumAt_eq_ok.mp h' with ⟨hfixed, rfl⟩ | ⟨_, votes', -, -, rfl⟩
  · rcases dynamicQuorumAt_eq_ok.mp h with ⟨-, rfl⟩ | ⟨_, votes, hparams, -, -⟩
    · rfl
    · rw [hfixed] at hparams
      cases hparams
  · rfl

/-- The quorum of the votes so far gives way to the one of a raised tally. -/
theorem quorumAfter_supersedes (hraised : (p.tally support).toNat ≤ tally.toNat)
    (stored due : Word256) :
    (∃ first later, p.dynamicQuorumAt p.againstVotes = .ok first ∧
      p.quorumAfter support tally = .ok later ∧ due = later.getD (first.getD stored)) ↔
    ∃ quorum, p.dynamicQuorumAt (p.setTally support tally).againstVotes = .ok quorum ∧
      due = quorum.getD stored := by
  by_cases hagainst : support = .against
  · subst hagainst
    constructor
    · rintro ⟨first, later, hfirst, hlater, rfl⟩
      exact ⟨later, hlater, getD_dynamicQuorumAt hfirst hlater stored⟩
    · rintro ⟨quorum, hquorum, rfl⟩
      obtain ⟨first, hfirst⟩ := dynamicQuorumAt_of_le hraised hquorum
      exact ⟨first, quorum, hfirst, hquorum, (getD_dynamicQuorumAt hfirst hquorum stored).symm⟩
  · -- the votes against stay
    have hsame : (p.setTally support tally).againstVotes = p.againstVotes := by
      cases support
      · exact absurd rfl hagainst
      · rfl
      · rfl
    rw [hsame, quorumAfter, if_neg hagainst]
    constructor
    · rintro ⟨first, later, hfirst, ⟨⟩, rfl⟩
      exact ⟨first, hfirst, rfl⟩
    · rintro ⟨quorum, hquorum, rfl⟩
      exact ⟨quorum, none, hquorum, rfl, rfl⟩

/-! ### A single vote -/

def attached (p : Proposal) (supply : Word256) (params : QuorumParams) : Proposal :=
  { p with totalSupply := supply, quorumParams := some params }

/-- What a vote and the attachment leave, with no regard to their order. -/
def votedAndAttached (p : Proposal) (supply : Word256) (params : QuorumParams) (voter : Address)
    (support : VoteSupport) (tally due : Word256) : Proposal :=
  { p.setTally support tally with
    totalSupply := supply
    quorumParams := some params
    quorumVotes := due
    voters := p.voters.insert voter }

/-- The attachment first: what both leave, and when both succeed. -/
theorem attached_then_voted :
    (∃ q, p.withDynamicQuorum supply params = .ok q ∧
      recordVote voter support votes q = .ok () r) ↔
    params.IsOrdered ∧ p.hasVoted voter = false ∧
      ∃ tally due, p.raisedTally support votes = .ok tally ∧
        (∃ first later, (p.attached supply params).dynamicQuorumAt p.againstVotes = .ok first ∧
          (p.attached supply params).quorumAfter support tally = .ok later ∧
          due = later.getD (first.getD p.quorumVotes)) ∧
        r = p.votedAndAttached supply params voter support tally due := by
  constructor
  · rintro ⟨_, hattach, hvote⟩
    obtain ⟨hordered, first, hfirst, rfl⟩ := withDynamicQuorum_eq_ok.mp hattach
    obtain ⟨hnew, tally, later, htally, hlater, rfl⟩ := recordVote_eq_ok.mp hvote
    refine ⟨hordered, hnew, tally, _, ?_, ⟨first, later, hfirst, hlater, rfl⟩, ?_⟩
    · cases support <;> exact htally
    · cases support <;> rfl
  · rintro ⟨hordered, hnew, tally, _, htally, ⟨first, later, hfirst, hlater, rfl⟩, rfl⟩
    refine ⟨_, withDynamicQuorum_eq_ok.mpr ⟨hordered, first, hfirst, rfl⟩,
      recordVote_eq_ok.mpr ⟨hnew, tally, later, ?_, hlater, ?_⟩⟩
    · cases support <;> exact htally
    · cases support <;> rfl

/-- The vote first: the same, with the quorum computed only once. -/
theorem voted_then_attached (hfixed : p.quorumParams = none) :
    (∃ q, recordVote voter support votes p = .ok () q ∧
      q.withDynamicQuorum supply params = .ok r) ↔
    params.IsOrdered ∧ p.hasVoted voter = false ∧
      ∃ tally due, p.raisedTally support votes = .ok tally ∧
        (∃ quorum, (p.attached supply params).dynamicQuorumAt
            ((p.attached supply params).setTally support tally).againstVotes = .ok quorum ∧
          due = quorum.getD p.quorumVotes) ∧
        r = p.votedAndAttached supply params voter support tally due := by
  constructor
  · rintro ⟨_, hvote, hattach⟩
    obtain ⟨hnew, tally, kept, htally, hkept, rfl⟩ := recordVote_eq_ok.mp hvote
    -- a fixed quorum is kept by the vote
    rw [quorumAfter_of_none hfixed] at hkept
    cases hkept
    obtain ⟨hordered, quorum, hquorum, rfl⟩ := withDynamicQuorum_eq_ok.mp hattach
    refine ⟨hordered, hnew, tally, _, htally, ⟨quorum, ?_, rfl⟩, ?_⟩
    · cases support <;> exact hquorum
    · cases support <;> rfl
  · rintro ⟨hordered, hnew, tally, _, htally, ⟨quorum, hquorum, rfl⟩, rfl⟩
    refine ⟨_, recordVote_eq_ok.mpr
      ⟨hnew, tally, none, htally, quorumAfter_of_none hfixed support tally, rfl⟩,
      withDynamicQuorum_eq_ok.mpr ⟨hordered, quorum, ?_, ?_⟩⟩
    · cases support <;> exact hquorum
    · cases support <;> rfl

/-- A vote may be counted before the attachment or after it. -/
theorem withDynamicQuorum_recordVote (hfixed : p.quorumParams = none) :
    (∃ q, p.withDynamicQuorum supply params = .ok q ∧
      recordVote voter support votes q = .ok () r) ↔
    ∃ q, recordVote voter support votes p = .ok () q ∧
      q.withDynamicQuorum supply params = .ok r := by
  rw [attached_then_voted, voted_then_attached hfixed]
  refine and_congr_right fun _ => and_congr_right fun _ => ?_
  refine exists_congr fun tally => exists_congr fun due => and_congr_right fun htally => ?_
  have hraised : ((p.attached supply params).tally support).toNat ≤ tally.toNat := by
    rw [raisedTally_eq_ok.mp htally]
    cases support <;> exact Nat.le_add_right _ _
  exact and_congr_left fun _ => quorumAfter_supersedes hraised p.quorumVotes due

theorem quorumParams_recordVote (h : recordVote voter support votes p = .ok () q) :
    q.quorumParams = p.quorumParams := by
  obtain ⟨-, tally, quorum, -, -, rfl⟩ := recordVote_eq_ok.mp h
  cases support <;> rfl

/-! ### Any number of votes -/

/-- **Attaching a dynamic quorum commutes with counting votes.**  To a proposal of a fixed quorum a
    supply and parameters may be attached before votes are counted or after them: the one way goes
    through if the other does, and both lead to the same proposal. -/
theorem attachment_commutes_with_votes (hfixed : p.quorumParams = none) (supply : Word256)
    (params : QuorumParams) (votesCast : List (Address × VoteSupport × Word256)) (r : Proposal) :
    (∃ q, p.withDynamicQuorum supply params = .ok q ∧ recordVotes votesCast q = .ok () r) ↔
      ∃ q, recordVotes votesCast p = .ok () q ∧ q.withDynamicQuorum supply params = .ok r := by
  induction votesCast generalizing p with
  | nil =>
    constructor
    · rintro ⟨q, hattach, ⟨⟩⟩
      exact ⟨p, rfl, hattach⟩
    · rintro ⟨q, ⟨⟩, hattach⟩
      exact ⟨r, hattach, rfl⟩
  | cons vote rest ih =>
    obtain ⟨voter, support, votes⟩ := vote
    constructor
    · rintro ⟨q, hattach, hvotes⟩
      obtain ⟨⟨⟩, q₁, hvote, hrest⟩ := bind_eq_ok.mp hvotes
      -- the attachment moves behind the first vote, and by induction behind the others
      obtain ⟨p₁, hvote', hattach'⟩ := (withDynamicQuorum_recordVote hfixed).mp ⟨q, hattach, hvote⟩
      have hfixed' : p₁.quorumParams = none := (quorumParams_recordVote hvote').trans hfixed
      obtain ⟨p₂, hrest', hlast⟩ := (ih hfixed').mp ⟨q₁, hattach', hrest⟩
      exact ⟨p₂, bind_eq_ok.mpr ⟨(), p₁, hvote', hrest'⟩, hlast⟩
    · rintro ⟨p₂, hvotes, hlast⟩
      obtain ⟨⟨⟩, p₁, hvote, hrest⟩ := bind_eq_ok.mp hvotes
      have hfixed' : p₁.quorumParams = none := (quorumParams_recordVote hvote).trans hfixed
      obtain ⟨q₁, hattach, hrest'⟩ := (ih hfixed').mpr ⟨p₂, hrest, hlast⟩
      obtain ⟨q, hattach', hvote'⟩ := (withDynamicQuorum_recordVote hfixed).mpr ⟨p₁, hvote, hattach⟩
      exact ⟨q, hattach', bind_eq_ok.mpr ⟨(), q₁, hvote', hrest'⟩⟩

def trialFixed : Proposal := create 1 .zero 5 10 20 (.ofUInt64 7)

/-- Sixty votes against, a hundred and sixty for, and forty against once more. -/
def trialCast : List (Address × VoteSupport × Word256) :=
  [(⟨List.replicate 20 1, rfl⟩, .against, .ofUInt64 60),
    (⟨List.replicate 20 2, rfl⟩, .for, .ofUInt64 160),
    (⟨List.replicate 20 3, rfl⟩, .against, .ofUInt64 40)]

/-- A slope of two from nothing, without a ceiling. -/
def trialSteep : QuorumParams := ⟨.zero, .whole, .ofUInt64 2000000⟩

/-- A tenth of the supply is against in the end, so a fifth of it is the quorum. -/
theorem attachment_commutes_with_votes_trial :
    ∃ q r, trialFixed.withDynamicQuorum (.ofUInt64 1000) trialSteep = .ok q ∧
      recordVotes trialCast q = .ok () r ∧ r.quorumVotes = .ofUInt64 200 ∧
      ∃ q', recordVotes trialCast trialFixed = .ok () q' ∧
        q'.withDynamicQuorum (.ofUInt64 1000) trialSteep = .ok r := by
  have hattach : trialFixed.withDynamicQuorum (.ofUInt64 1000) trialSteep =
      .ok { trialFixed.attached (.ofUInt64 1000) trialSteep with quorumVotes := .zero } := by
    decide +kernel
  have hvotes : (recordVotes trialCast).makes
      { trialFixed.attached (.ofUInt64 1000) trialSteep with quorumVotes := .zero } =
        .ok ((recordVotes trialCast).leaves
          { trialFixed.attached (.ofUInt64 1000) trialSteep with quorumVotes := .zero }) := by
    decide +kernel
  obtain ⟨⟨⟩, hvotes⟩ := makes_eq_ok.mp hvotes
  exact ⟨_, _, hattach, hvotes, by decide +kernel,
    (attachment_commutes_with_votes rfl _ _ _ _).mp ⟨_, hattach, hvotes⟩⟩

end DynamicQuorum.Proposal
