/-
  DynamicQuorum/Proofs/Proposal/Acceptance.lean
  =============================================
  **When a vote is refused, and what an accepted one changes.**

  Three things are looked at in turn: the voter, the raised tally and, if votes of this kind move
  the quorum, the quorum of that tally.  The causes of the three refusals differ, since a quorum
  is at fault only for one of its two products, so each cause tells which obstacle was met.  All
  this holds of any proposal, also of one whose stored quorum or parameters make no sense.
-/
import DynamicQuorum.Proofs.AddressSet
import DynamicQuorum.Proofs.Proposal.Sync
import DynamicQuorum.Proofs.Quorum.Exact

namespace DynamicQuorum

theorem QuorumParams.isDynamic_iff {params : QuorumParams} :
    params.isDynamic = true ↔ params.coefficient ≠ .zero := by
  simp [isDynamic, Word256.isZero]

namespace Proposal

variable {p q : Proposal} {voter : Address} {support : VoteSupport} {votes tally : Word256}
  {params : QuorumParams} {cause : GovernanceError}

/-! ### The three obstacles -/

theorem hasVoted_iff : p.hasVoted voter = true ↔ voter ∈ p.voters.toList :=
  AddressSet.contains_iff

theorem hasVoted_eq_false : p.hasVoted voter = false ↔ voter ∉ p.voters.toList := by
  rw [← hasVoted_iff, Bool.not_eq_true]

theorem raisedTally_eq_error :
    p.raisedTally support votes = .error cause ↔
      2 ^ 256 ≤ (p.tally support).toNat + votes.toNat ∧ cause = .overflow .tally := by
  rw [← Word256.size_eq, ← Word256.add?_eq_none, raisedTally]
  cases (p.tally support).add? votes with
  | none => simp [eq_comm]
  | some sum => simp

def MovesQuorum (p : Proposal) (support : VoteSupport) (params : QuorumParams) : Prop :=
  support = .against ∧ p.quorumParams = some params ∧ params.coefficient ≠ .zero

theorem movesQuorum_iff :
    p.MovesQuorum support params ↔ support = .against ∧ p.dynamicParams? = some params := by
  rw [MovesQuorum, dynamicParams?_eq_some, QuorumParams.isDynamic_iff]

theorem quorumAfter_eq_error :
    p.quorumAfter support tally = .error cause ↔ ∃ params, p.MovesQuorum support params ∧
      params.quorumVotes ⟨tally, p.totalSupply⟩ = .error cause := by
  rw [quorumAfter]
  split
  next hagainst => simp [dynamicQuorumAt_eq_error, movesQuorum_iff, hagainst]
  next hother => simp [MovesQuorum, hother]

theorem quorumAfter_eq_ok {quorum : Option Word256} :
    p.quorumAfter support tally = .ok quorum ↔
      ((∀ params, ¬ p.MovesQuorum support params) ∧ quorum = none) ∨
        ∃ params votes, p.MovesQuorum support params ∧
          params.quorumVotes ⟨tally, p.totalSupply⟩ = .ok votes ∧ quorum = some votes := by
  rw [quorumAfter]
  split
  next hagainst =>
    simp [dynamicQuorumAt_eq_ok, movesQuorum_iff, hagainst, Option.eq_none_iff_forall_ne_some]
  next hother => simp [MovesQuorum, hother, eq_comm]

/-- A quorum is at fault for one of its two products, never for the tally. -/
theorem quorumAfter_error (h : p.quorumAfter support tally = .error cause) :
    cause = .overflow .againstShare ∨ cause = .overflow .votesOfShare := by
  obtain ⟨params, -, hfault⟩ := quorumAfter_eq_error.mp h
  exact QuorumParams.quorumVotes_error hfault

/-! ### Refusals -/

theorem recordVote_eq_alreadyVoted :
    recordVote voter support votes p = .error .alreadyVoted q ↔
      q = p ∧ voter ∈ p.voters.toList := by
  rw [recordVote_eq_error, hasVoted_iff]
  refine and_congr_right fun _ => ?_
  constructor
  · rintro (⟨voted, -⟩ | ⟨-, htally | ⟨tally, -, hquorum⟩⟩)
    · exact voted
    · cases (raisedTally_eq_error.mp htally).2
    · rcases quorumAfter_error hquorum with h | h <;> cases h
  · intro voted
    exact .inl ⟨voted, rfl⟩

theorem recordVote_eq_tallyOverflow :
    recordVote voter support votes p = .error (.overflow .tally) q ↔
      q = p ∧ voter ∉ p.voters.toList ∧ 2 ^ 256 ≤ (p.tally support).toNat + votes.toNat := by
  rw [recordVote_eq_error, hasVoted_eq_false]
  refine and_congr_right fun _ => ?_
  constructor
  · rintro (⟨-, ⟨⟩⟩ | ⟨new, htally | ⟨tally, -, hquorum⟩⟩)
    · exact ⟨new, (raisedTally_eq_error.mp htally).1⟩
    · rcases quorumAfter_error hquorum with h | h <;> cases h
  · rintro ⟨new, hspill⟩
    exact .inr ⟨new, .inl (raisedTally_eq_error.mpr ⟨hspill, rfl⟩)⟩

/-- With a new voter and room in the tally, only the quorum is left to be at fault. -/
theorem recordVote_eq_error_of_raised (new : voter ∉ p.voters.toList)
    (raised : tally.toNat = (p.tally support).toNat + votes.toNat) :
    recordVote voter support votes p = .error cause q ↔
      q = p ∧ ∃ params, p.MovesQuorum support params ∧
        params.quorumVotes ⟨tally, p.totalSupply⟩ = .error cause := by
  rw [recordVote_eq_error, hasVoted_eq_false.mpr new, raisedTally_eq_ok.mpr raised]
  simp [quorumAfter_eq_error]

/-- A new vote whose tally is a word is counted if the quorum that it moves can be computed. -/
theorem recordVote_isOk_of_raised (new : voter ∉ p.voters.toList)
    (raised : tally.toNat = (p.tally support).toNat + votes.toNat) :
    (∃ q, recordVote voter support votes p = .ok () q) ↔
      ∀ params, p.MovesQuorum support params →
        ∃ quorum, params.quorumVotes ⟨tally, p.totalSupply⟩ = .ok quorum := by
  constructor
  · rintro ⟨q, h⟩ params hmoves
    cases hquorum : params.quorumVotes ⟨tally, p.totalSupply⟩ with
    | ok quorum => exact ⟨quorum, rfl⟩
    | error cause =>
      rw [(recordVote_eq_error_of_raised new raised).mpr ⟨rfl, params, hmoves, hquorum⟩] at h
      cases h
  · intro hcomputable
    cases h : recordVote voter support votes p with
    | ok _ q => exact ⟨q, rfl⟩
    | error cause q =>
      obtain ⟨-, params, hmoves, hfault⟩ := (recordVote_eq_error_of_raised new raised).mp h
      obtain ⟨quorum, hquorum⟩ := hcomputable params hmoves
      rw [hquorum] at hfault
      cases hfault

/-! ### The effect -/

theorem MovesQuorum.unique {params' : QuorumParams} (h : p.MovesQuorum support params)
    (h' : p.MovesQuorum support params') : params' = params :=
  Option.some.inj (h'.2.1.symm.trans h.2.1)

/-- An accepted vote raises one tally, adds the voter and stores the quorum of the raised tally,
    if votes of its kind move the quorum. -/
theorem recordVote_effect (h : recordVote voter support votes p = .ok () q) :
    ∃ tally quorum, tally.toNat = (p.tally support).toNat + votes.toNat ∧
      (∀ params, p.MovesQuorum support params →
        params.quorumVotes ⟨tally, p.totalSupply⟩ = .ok quorum) ∧
      ((∀ params, ¬ p.MovesQuorum support params) → quorum = p.quorumVotes) ∧
      q = { p.setTally support tally with
        quorumVotes := quorum
        voters := p.voters.insert voter } := by
  obtain ⟨-, tally, quorum, htally, hquorum, rfl⟩ := recordVote_eq_ok.mp h
  have hstored : (p.setTally support tally).quorumVotes = p.quorumVotes := by
    cases support <;> rfl
  have hvoters : (p.setTally support tally).voters = p.voters := by
    cases support <;> rfl
  refine ⟨tally, quorum.getD p.quorumVotes, raisedTally_eq_ok.mp htally, ?_, ?_, ?_⟩
  · intro params hmoves
    rcases quorumAfter_eq_ok.mp hquorum with ⟨hfixed, -⟩ | ⟨params', _, hmoves', hvotes, rfl⟩
    · exact absurd hmoves (hfixed params)
    · -- a proposal has one set of parameters
      rw [← hmoves.unique hmoves']
      exact hvotes
  · intro hfixed
    rcases quorumAfter_eq_ok.mp hquorum with ⟨-, rfl⟩ | ⟨params, _, hmoves, -, -⟩
    · rfl
    · exact absurd hmoves (hfixed params)
  · rw [hstored, hvoters]

/-! ### Exact acceptance -/

/-- **A vote is accepted exactly when it can be counted.**  Whatever the proposal holds, a refused
    vote leaves it as it was.  The voter is looked at first, then the raised tally, and last, for
    a vote that moves the quorum, the quorum of that tally; a vote that passes is accepted.  An
    accepted one raises its tally, adds its voter and stores that quorum, if it moves the quorum;
    every other field stays as it was. -/
theorem vote_is_accepted_exactly (p : Proposal) (voter : Address) (support : VoteSupport)
    (votes : Word256) :
    (∀ cause q, recordVote voter support votes p = .error cause q → q = p) ∧
    (recordVote voter support votes p = .error .alreadyVoted p ↔ voter ∈ p.voters.toList) ∧
    (recordVote voter support votes p = .error (.overflow .tally) p ↔
      voter ∉ p.voters.toList ∧ 2 ^ 256 ≤ (p.tally support).toNat + votes.toNat) ∧
    (∀ tally : Word256, voter ∉ p.voters.toList →
      tally.toNat = (p.tally support).toNat + votes.toNat →
      (∀ cause, recordVote voter support votes p = .error cause p ↔
        ∃ params, p.MovesQuorum support params ∧
          params.quorumVotes ⟨tally, p.totalSupply⟩ = .error cause) ∧
      ((∃ q, recordVote voter support votes p = .ok () q) ↔
        ∀ params, p.MovesQuorum support params →
          ∃ quorum, params.quorumVotes ⟨tally, p.totalSupply⟩ = .ok quorum)) ∧
    (∀ q, recordVote voter support votes p = .ok () q →
      ∃ tally quorum, tally.toNat = (p.tally support).toNat + votes.toNat ∧
        (∀ params, p.MovesQuorum support params →
          params.quorumVotes ⟨tally, p.totalSupply⟩ = .ok quorum) ∧
        ((∀ params, ¬ p.MovesQuorum support params) → quorum = p.quorumVotes) ∧
        (∀ a, a ∈ q.voters.toList ↔ a = voter ∨ a ∈ p.voters.toList) ∧
        q = { p.setTally support tally with
          quorumVotes := quorum
          voters := q.voters }) := by
  refine ⟨?_, ?_, ?_, ?_, ?_⟩
  · intro cause q h
    -- all that may fail comes before the first write
    exact recordVote_atomic _ _ _ _ _ _ h
  · rw [recordVote_eq_alreadyVoted]
    exact and_iff_right rfl
  · rw [recordVote_eq_tallyOverflow]
    exact and_iff_right rfl
  · intro tally new raised
    refine ⟨?_, recordVote_isOk_of_raised new raised⟩
    intro cause
    rw [recordVote_eq_error_of_raised new raised]
    exact and_iff_right rfl
  · intro q h
    obtain ⟨tally, quorum, raised, hmoved, hfixed, rfl⟩ := recordVote_effect h
    refine ⟨tally, quorum, raised, hmoved, hfixed, ?_, rfl⟩
    intro a
    rw [← AddressSet.contains_iff, ← AddressSet.contains_iff, AddressSet.contains_insert]

def trialInverted : QuorumParams :=
  ⟨⟨2800, by decide⟩, ⟨1400, by decide⟩, .ofUInt64 coefficientScale⟩

/-- A proposal with these parameters, and with a quorum that is not theirs. -/
def trialProposal : Proposal :=
  { create 1 .zero 5 10 20 (.ofUInt64 7) with
    againstVotes := .ofUInt64 60
    totalSupply := .ofUInt64 1000
    quorumParams := some trialInverted }

/-- Forty votes against are counted and bring the quorum to the ceiling; `2 ^ 250` are too many
    for the quorum, and the greatest word is too much for the tally. -/
theorem vote_is_accepted_exactly_trial :
    (∃ q, recordVote .zero .against (.ofUInt64 40) trialProposal = .ok () q ∧
      q.againstVotes = .ofUInt64 100 ∧ q.quorumVotes = .ofUInt64 140 ∧
      q.forVotes = trialProposal.forVotes ∧ .zero ∈ q.voters.toList) ∧
    recordVote .zero .against (.ofNat (2 ^ 250)) trialProposal =
      .error (.overflow .againstShare) trialProposal ∧
    recordVote .zero .against (.ofNat (2 ^ 256 - 1)) trialProposal =
      .error (.overflow .tally) trialProposal := by
  have new : (.zero : Address) ∉ trialProposal.voters.toList := by decide
  have hmoves : trialProposal.MovesQuorum .against trialInverted := ⟨rfl, rfl, by decide⟩
  refine ⟨?_, ?_, ?_⟩
  · obtain ⟨-, -, -, hcounted, heffect⟩ :=
      vote_is_accepted_exactly trialProposal .zero .against (.ofUInt64 40)
    obtain ⟨-, haccepted⟩ := hcounted (.ofUInt64 100) new (by decide)
    have hquorum : trialInverted.quorumVotes ⟨.ofUInt64 100, .ofUInt64 1000⟩ =
        .ok (.ofUInt64 140) := by decide +kernel
    obtain ⟨q, h⟩ := haccepted.mpr fun params hmoves' => by
      rw [hmoves.unique hmoves']
      exact ⟨_, hquorum⟩
    obtain ⟨tally, quorum, raised, hmoved, -, hvoters, hq⟩ := heffect q h
    obtain rfl : tally = .ofUInt64 100 := Word256.toNat_injective (raised.trans (by decide))
    have hstored : .ok quorum = (.ok (.ofUInt64 140) : Except GovernanceError Word256) :=
      (hmoved _ hmoves).symm.trans hquorum
    refine ⟨q, h, ?_, ?_, ?_, (hvoters .zero).mpr (.inl rfl)⟩
    · rw [hq]
      rfl
    · rw [hq]
      exact Except.ok.inj hstored
    · rw [hq]
      rfl
  · obtain ⟨-, -, -, hcounted, -⟩ :=
      vote_is_accepted_exactly trialProposal .zero .against (.ofNat (2 ^ 250))
    obtain ⟨hrefused, -⟩ := hcounted (.ofNat (2 ^ 250 + 60)) new (by decide +kernel)
    exact (hrefused _).mpr ⟨_, hmoves, by decide +kernel⟩
  · obtain ⟨-, -, hspill, -, -⟩ :=
      vote_is_accepted_exactly trialProposal .zero .against (.ofNat (2 ^ 256 - 1))
    exact hspill.mpr ⟨new, by decide +kernel⟩

end Proposal

end DynamicQuorum
