/-
  DynamicQuorum/Proofs/Indexer/VoteOrder.lean
  ===========================================
  **The order of votes does not matter.**

  Two votes that are accepted one after the other are also accepted the other way round, and lead
  to the same state: on one proposal because their ballots may be exchanged, on two because they
  do not meet.  Every permutation of a list is made of such exchanges of neighbours.
-/
import DynamicQuorum.Proofs.Indexer.Sync
import DynamicQuorum.Proofs.Proposal.Exchange

namespace DynamicQuorum.Indexer

variable {s t u : Indexer} {e x y : LoggedEvent} {events vs vs' : List LoggedEvent}
  {b c : Ballot} {p q : Proposal}

/-! ### Storing twice -/

theorem store_store (s : Indexer) (h : p.id = q.id) : (s.store p).store q = s.store q := by
  have hkey : p.key = q.key := congrArg UInt64.toNat h
  simp only [store, Ascending.put_put s.proposals hkey]

theorem store_comm (s : Indexer) (h : p.id ≠ q.id) :
    (s.store p).store q = (s.store q).store p := by
  have hkey : p.key ≠ q.key := fun hkey => h (UInt64.toNat_inj.mp hkey)
  simp only [store, Ascending.put_comm s.proposals hkey]

/-! ### Votes -/

/-- A vote is accepted when its ballot is counted. -/
theorem step_vote_iff (vote : e.event = .voteCast b) :
    Step e s t ↔ ∃ p q, s.proposal? b.proposalId = some p ∧
      Proposal.countBallot b p = .ok () q ∧ t = (s.store q).counted := by
  constructor
  · intro h
    cases h with
    | created kind fresh opened => cases vote.symm.trans kind
    | @edited p q edit found =>
      rw [vote] at edit
      cases edit with
      | ballot named count => exact ⟨p, q, named ▸ found, count, rfl⟩
      | lifecycle kind => cases kind
    | changed kind write =>
      rw [vote] at kind
      cases kind
  · rintro ⟨p, q, found, count, rfl⟩
    have hid := id_of_proposal? found
    exact .edited (vote ▸ .ballot hid.symm count) (hid ▸ found)

def Synced (s : Indexer) : Prop := ∀ id p, s.proposal? id = some p → p.InSync

theorem Accepts.synced (h : Accepts s events t) (hs : Synced s) : Synced t :=
  h.stored (fun _ _ _ _ opened => Announcement.toProposal_inSync opened)
    (fun _ _ _ edit hp => edit.inSync hp) hs

/-- **Neighbouring votes may be exchanged.** -/
theorem Step.exchange (hs : Synced s) (hx : x.event = .voteCast b) (hy : y.event = .voteCast c)
    (first : Step x s t) (second : Step y t u) : ∃ t', Step y s t' ∧ Step x t' u := by
  obtain ⟨p, q, hp, hb, rfl⟩ := (step_vote_iff hx).mp first
  obtain ⟨p', r, hp', hc, rfl⟩ := (step_vote_iff hy).mp second
  have hpid := id_of_proposal? hp
  have hqid : q.id = b.proposalId := (Proposal.countBallot_id hb).trans hpid
  by_cases hsame : c.proposalId = b.proposalId
  · -- on one proposal: the second ballot finds what the first one left
    have hfound : (s.store q).counted.proposal? c.proposalId = some q := by simp [hqid, hsame]
    cases hfound.symm.trans hp'
    obtain ⟨q', hc', hb'⟩ := Proposal.countBallot_exchange (hs _ p hp) hb hc
    have hqid' : q'.id = b.proposalId := (Proposal.countBallot_id hc').trans hpid
    have hrid : r.id = b.proposalId := (Proposal.countBallot_id hc).trans hqid
    refine ⟨(s.store q').counted, (step_vote_iff hy).mpr ⟨p, q', hsame ▸ hp, hc', rfl⟩,
      (step_vote_iff hx).mpr ⟨q', r, by simp [hqid'], hb', ?_⟩⟩
    calc ((s.store q).counted.store r).counted
        = ((s.store q).store r).counted.counted := rfl
      _ = ((s.store q').store r).counted.counted := by
          rw [store_store s (hqid.trans hrid.symm), store_store s (hqid'.trans hrid.symm)]
  · -- on two proposals: neither vote sees the other
    have hother : c.proposalId ≠ q.id := by rwa [hqid]
    have hp'' : s.proposal? c.proposalId = some p' := by simpa [hother] using hp'
    have hrid : r.id = c.proposalId := (Proposal.countBallot_id hc).trans (id_of_proposal? hp'')
    have hp''' : (s.store r).counted.proposal? b.proposalId = some p := by
      simp [hrid, Ne.symm hsame, hp]
    refine ⟨(s.store r).counted, (step_vote_iff hy).mpr ⟨p', r, hp'', hc, rfl⟩,
      (step_vote_iff hx).mpr ⟨p, q, hp''', hb, ?_⟩⟩
    calc ((s.store q).counted.store r).counted
        = ((s.store q).store r).counted.counted := rfl
      _ = ((s.store r).store q).counted.counted := by
          rw [store_comm s (by rw [hqid, hrid]; exact Ne.symm hsame)]

/-! ### Lists of votes -/

/-- Votes that are accepted in one order are accepted in every other. -/
theorem Accepts.perm (hvotes : ∀ e ∈ vs, ∃ b, e.event = .voteCast b) (perm : vs.Perm vs')
    (hs : Synced s) (h : Accepts s vs t) : Accepts s vs' t := by
  induction perm generalizing s with
  | nil => exact h
  | cons e _ ih =>
    cases h with
    | cons first run =>
      have hnext := (Accepts.cons first (.nil _)).synced hs
      exact .cons first (ih (fun e he => hvotes e (List.mem_cons_of_mem _ he)) hnext run)
  -- an exchange of neighbours is the only case that runs anything
  | swap x y rest =>
    cases h with
    | cons first run =>
      cases run with
      | cons second run =>
        obtain ⟨b, hb⟩ := hvotes y List.mem_cons_self
        obtain ⟨c, hc⟩ := hvotes x (List.mem_cons_of_mem _ List.mem_cons_self)
        obtain ⟨t', first', second'⟩ :=
          (handle_eq_ok.mp first).exchange hs hb hc (handle_eq_ok.mp second)
        exact .cons (handle_eq_ok.mpr first') (.cons (handle_eq_ok.mpr second') run)
  | trans perm₁ _ ih₁ ih₂ =>
    exact ih₂ (fun e he => hvotes e (perm₁.mem_iff.mpr he)) hs (ih₁ hvotes hs h)

/-- **The order of votes does not matter.**  Votes that are accepted one after another in a
    reachable state are accepted in every order, and lead to the same state. -/
theorem vote_order_is_irrelevant (start : Initial s) (log : List LoggedEvent)
    (hvotes : ∀ e ∈ vs, ∃ b, e.event = .voteCast b) (perm : vs.Perm vs')
    (h : handleAll vs (handleEach s log) = .ok () t) :
    handleAll vs' (handleEach s log) = .ok () t := by
  have hsynced : Synced (handleEach s log) := fun id p found =>
    (accepts_accepted s log).inSync start found
  exact handleAll_eq_ok.mpr ((handleAll_eq_ok.mp h).perm hvotes perm hsynced)

/-- Two votes against and one for, last to first. -/
theorem vote_order_is_irrelevant_trial :
    ∃ t, handleAll [trialVote 1 .against 60, trialVote 2 .for 160, trialVote 3 .against 40]
        (handleEach (withHistory trialHistory) [trialCreation]) = .ok () t ∧
      handleAll [trialVote 3 .against 40, trialVote 2 .for 160, trialVote 1 .against 60]
        (handleEach (withHistory trialHistory) [trialCreation]) = .ok () t := by
  have hok : (handleAll [trialVote 1 .against 60, trialVote 2 .for 160,
      trialVote 3 .against 40]).makes (handleEach (withHistory trialHistory) [trialCreation]) =
        .ok ((handleAll [trialVote 1 .against 60, trialVote 2 .for 160,
          trialVote 3 .against 40]).leaves
            (handleEach (withHistory trialHistory) [trialCreation])) := by decide +kernel
  obtain ⟨⟨⟩, h⟩ := InPlace.makes_eq_ok.mp hok
  refine ⟨_, h, vote_order_is_irrelevant (.withHistory trialHistory) [trialCreation] ?_
    (List.reverse_perm _).symm h⟩
  intro e he
  simp only [List.mem_cons, List.not_mem_nil, or_false] at he
  rcases he with rfl | rfl | rfl <;> exact ⟨_, rfl⟩

end DynamicQuorum.Indexer
