/-
  DynamicQuorum/Proofs/Proposal/Exchange.lean
  ===========================================
  **Two ballots may be counted in either order.**

  Counted in the other order the ballots pass through tallies that the first order never met.
  These lie below the last ones, where the quorum could be computed, so it can be computed there
  as well.  What comes out is the same: the tallies are sums, the voters are a set, and the
  quorum is the one of the last tally against, whichever ballot stored it.
-/
import DynamicQuorum.Proofs.Proposal.Count
import DynamicQuorum.Proofs.Proposal.Sway

namespace DynamicQuorum.Proposal

variable {p q q' r : Proposal} {b c : Ballot}

/-! ### What a ballot must meet -/

/-- A ballot finds its quorum, if the one of its tally can be computed where there is one. -/
theorem quorumAfter_isOk (hp : p.InSync) {support : VoteSupport} {tally : Word256}
    (h : support = .against → ∀ params, p.quorumParams = some params →
      ∃ votes, params.quorumVotes ⟨tally, p.totalSupply⟩ = .ok votes) :
    ∃ quorum, p.quorumAfter support tally = .ok quorum := by
  cases hparams : p.quorumParams with
  | none => exact ⟨none, quorumAfter_of_none hparams support tally⟩
  | some params =>
    rw [quorumAfter]
    split
    next hagainst =>
      obtain ⟨-, hdynamic, -⟩ := hp params hparams
      obtain ⟨votes, hvotes⟩ := h hagainst params hparams
      exact ⟨some votes, (dynamicQuorumAt_of_some hparams hdynamic).mpr ⟨votes, rfl, hvotes⟩⟩
    next => exact ⟨none, rfl⟩

/-- A proposal with at least as many votes, of the same supply and parameters, shows that a
    ballot can be counted. -/
theorem countBallot_isOk_of_le (hp : p.InSync) (hr : r.InSync)
    (hparams : r.quorumParams = p.quorumParams) (hsupply : r.totalSupply = p.totalSupply)
    (hnew : p.hasVoted b.voter = false)
    (hroom : (p.tally b.support).toNat + b.votes.toNat ≤ (r.tally b.support).toNat) :
    ∃ q, countBallot b p = .ok () q := by
  have hfits : (p.tally b.support).toNat + b.votes.toNat < Word256.size :=
    Nat.lt_of_le_of_lt hroom (Word256.toNat_lt _)
  have htally := Word256.toNat_ofNat_of_lt hfits
  have hcomputable : b.support = .against → ∀ params, p.quorumParams = some params →
      ∃ votes, params.quorumVotes
        ⟨.ofNat ((p.tally b.support).toNat + b.votes.toNat), p.totalSupply⟩ = .ok votes := by
    intro hagainst params hsome
    -- a quorum that can be computed of more votes against can be computed of fewer
    obtain ⟨-, -, hvotes⟩ := hr params (hparams.trans hsome)
    rw [snapshot, hsupply] at hvotes
    refine (QuorumParams.AtMost.refl params).quorumVotes_isOk ?_ hvotes
    rw [htally]
    rwa [hagainst] at hroom ⊢
  obtain ⟨quorum, hquorum⟩ := quorumAfter_isOk hp hcomputable
  exact ⟨_, countBallot_eq_ok.mpr
    ⟨hnew, _, quorum, raisedTally_eq_ok.mpr htally, hquorum, rfl⟩⟩

/-! ### What is left of two ballots -/

theorem eq_of_besidesVotes (hbesides : q.besidesVotes = p.besidesVotes)
    (htally : ∀ kind, q.tally kind = p.tally kind) (hquorum : q.quorumVotes = p.quorumVotes)
    (hstatus : q.status = p.status) (hvoters : q.voters = p.voters) : q = p := by
  have hfor := htally .for
  have hagainst := htally .against
  have habstain := htally .abstain
  cases p
  cases q
  simp only [besidesVotes, tally, Proposal.mk.injEq] at *
  simp_all

theorem status_countBallot (h : countBallot b p = .ok () q) :
    q.status = if p.status = .pending then .active else p.status := by
  obtain ⟨-, tally, quorum, -, -, rfl⟩ := countBallot_eq_ok.mp h
  rfl

/-- What two counted ballots leave of a proposal, with no regard to their order. -/
structure CountsBoth (b c : Ballot) (p r : Proposal) : Prop where
  besides : r.besidesVotes = p.besidesVotes
  tallies : ∀ kind, (r.tally kind).toNat = (p.tally kind).toNat +
    (if kind = b.support then b.votes.toNat else 0) +
    (if kind = c.support then c.votes.toNat else 0)
  distinct : b.voter ≠ c.voter
  voters : r.voters = (p.voters.insert b.voter).insert c.voter
  status : r.status = if p.status = .pending then .active else p.status
  fixed : p.quorumParams = none → r.quorumVotes = p.quorumVotes
  inSync : r.InSync

theorem CountsBoth.of_countBallot (hp : p.InSync) (hb : countBallot b p = .ok () q)
    (hc : countBallot c q = .ok () r) : CountsBoth b c p r := by
  have hbesides := besidesVotes_countBallot hb
  obtain ⟨-, hvotersB⟩ := voters_countBallot hb
  obtain ⟨hnewC, hvotersC⟩ := voters_countBallot hc
  refine ⟨(besidesVotes_countBallot hc).trans hbesides, fun kind => ?_, fun hsame => ?_, ?_, ?_,
    fun hfixed => ?_, (hp.countBallot hb).countBallot hc⟩
  · rw [toNat_tally_countBallot hc, toNat_tally_countBallot hb]
  · have hvoted : q.hasVoted c.voter = true := (hasVoted_countBallot hb _).mpr (.inl hsame.symm)
    rw [hasVoted, hnewC] at hvoted
    cases hvoted
  · rw [hvotersC, hvotersB]
  · rw [status_countBallot hc, status_countBallot hb]
    cases p.status <;> rfl
  · have hfixed' : q.quorumParams = none := (congrArg quorumParams hbesides :).trans hfixed
    rw [countBallot_quorumVotes hfixed' hc, countBallot_quorumVotes hfixed hb]

theorem CountsBoth.symm (h : CountsBoth b c p r) : CountsBoth c b p r := by
  refine ⟨h.besides, fun kind => ?_, h.distinct.symm, ?_, h.status, h.fixed, h.inSync⟩
  · rw [h.tallies]
    omega
  · rw [h.voters, AddressSet.insert_comm _ h.distinct]

/-- What two ballots leave is determined, the quorum included, for it is in sync. -/
theorem CountsBoth.unique {r' : Proposal} (h : CountsBoth b c p r) (h' : CountsBoth b c p r') :
    r' = r := by
  have hbesides : r'.besidesVotes = r.besidesVotes := h'.besides.trans h.besides.symm
  have htally : ∀ kind, r'.tally kind = r.tally kind := by
    intro kind
    apply Word256.toNat_injective
    rw [h'.tallies, h.tallies]
  refine eq_of_besidesVotes hbesides htally ?_ (h'.status.trans h.status.symm)
    (h'.voters.trans h.voters.symm)
  refine h.inSync.quorumVotes_eq h'.inSync (congrArg quorumParams hbesides :)
    (congrArg totalSupply hbesides :) (htally .against) fun hnone => ?_
  have hfixed : p.quorumParams = none := (congrArg quorumParams h.besides.symm :).trans hnone
  rw [h'.fixed hfixed, h.fixed hfixed]

/-- **Two ballots may be exchanged.** -/
theorem countBallot_exchange (hp : p.InSync) (hb : countBallot b p = .ok () q)
    (hc : countBallot c q = .ok () r) :
    ∃ q', countBallot c p = .ok () q' ∧ countBallot b q' = .ok () r := by
  have hboth := CountsBoth.of_countBallot hp hb hc
  obtain ⟨hnewB, -⟩ := voters_countBallot hb
  obtain ⟨hnewC, -⟩ := voters_countBallot hc
  have hnewC' : p.hasVoted c.voter = false := by
    rw [← Bool.not_eq_true]
    intro hvoted
    have hvoted' : q.hasVoted c.voter = true := (hasVoted_countBallot hb _).mpr (.inr hvoted)
    rw [hasVoted, hnewC] at hvoted'
    cases hvoted'
  obtain ⟨q', hc'⟩ := countBallot_isOk_of_le hp hboth.inSync (congrArg quorumParams hboth.besides :)
    (congrArg totalSupply hboth.besides :) hnewC' (by rw [hboth.tallies, if_pos rfl]; omega)
  -- the first ballot still finds its voter unknown, and room
  have hnewB' : q'.hasVoted b.voter = false := by
    rw [← Bool.not_eq_true, hasVoted_countBallot hc', not_or, Bool.not_eq_true]
    exact ⟨hboth.distinct, hnewB⟩
  have hbesides : r.besidesVotes = q'.besidesVotes :=
    hboth.besides.trans (besidesVotes_countBallot hc').symm
  obtain ⟨r', hb'⟩ := countBallot_isOk_of_le (hp.countBallot hc') hboth.inSync
    (congrArg quorumParams hbesides :) (congrArg totalSupply hbesides :) hnewB' (by
      rw [hboth.tallies, toNat_tally_countBallot hc', if_pos rfl]
      omega)
  have hboth' := CountsBoth.of_countBallot hp hc' hb'
  obtain rfl := hboth.unique hboth'.symm
  exact ⟨q', hc', hb'⟩

end DynamicQuorum.Proposal
