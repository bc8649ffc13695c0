/-
  DynamicQuorum/Proofs/Indexer/Sync.lean
  ======================================
  **In every reachable state the stored quorums are up to date.**

  New proposals are in sync and every edit keeps them so, whatever becomes of the history in
  the meantime: a proposal carries its own parameters.  So the quorum of a proposal never
  has to be computed again, and one without parameters still has the quorum that was reported
  with it.
-/
import DynamicQuorum.Proofs.Indexer.Run

namespace DynamicQuorum

namespace Indexer

variable {s t : Indexer} {events : List LoggedEvent} {p : Proposal}

/-! ### Runs -/

theorem Accepts.inSync (start : Initial s) (h : Accepts s events t) {id : UInt64}
    (found : t.proposal? id = some p) : p.InSync :=
  h.stored_of_initial start (fun _ _ _ _ opened => Announcement.toProposal_inSync opened)
    (fun _ _ _ edit hp => edit.inSync hp) found

/-- A proposal without parameters has the quorum that its announcement reported. -/
theorem Accepts.reported {a : Announcement} (h : Accepts s events t)
    (ha : a ∈ announcements events) (found : t.proposal? a.id = some p)
    (hfixed : p.quorumParams = none) : p.quorumVotes = a.quorumVotes := by
  obtain ⟨q, found', hq⟩ := h.announced (P := fun p =>
    p.quorumParams = none → p.quorumVotes = a.quorumVotes) ha
    (fun _ _ _ => Announcement.toProposal_quorumVotes) fun e p q edit hp hnone => by
      rw [edit.quorumParams] at hnone
      rw [edit.quorumVotes hnone, hp hnone]
  cases found.symm.trans found'
  exact hq hfixed

/-- **Stored quorums are in sync.**  In every state that a log leads to, refused events
    included, a proposal with parameters has sound and dynamic ones, and their quorum of its
    votes; there is nothing to refresh.  A proposal without parameters has the quorum
    that was reported with its accepted announcement. -/
theorem stored_quorum_in_sync (start : Initial s) (events : List LoggedEvent) {r : Proposal}
    (stored : r ∈ (handleEach s events).proposals.toList) :
    (∀ params, r.quorumParams = some params →
      params.minBps ≤ params.maxBps ∧ params.isDynamic ∧
        params.quorumVotes ⟨r.againstVotes, r.totalSupply⟩ = .ok r.quorumVotes ∧
        Proposal.refreshQuorum r = .ok false r) ∧
    (r.quorumParams = none →
      (∃ a ∈ announcements (accepted s events), a.id = r.id) ∧
        ∀ a ∈ announcements (accepted s events), a.id = r.id → r.quorumVotes = a.quorumVotes) := by
  have hrun := accepts_accepted s events
  have found : (handleEach s events).proposal? r.id = some r :=
    Registry.get?_eq_some.mpr ⟨stored, rfl⟩
  have hsync := hrun.inSync start found
  refine ⟨fun params hparams => ?_, fun hfixed => ⟨?_, fun a ha hid => ?_⟩⟩
  · obtain ⟨hordered, hdynamic, hquorum⟩ := hsync params hparams
    exact ⟨hordered, hdynamic, hquorum, hsync.refreshQuorum⟩
  · -- at the start nothing is stored
    rcases hrun.origin found with ⟨p, hp⟩ | hannounced
    · rw [start.proposal? r.id] at hp
      cases hp
    · exact hannounced
  · exact hrun.reported ha (hid ▸ found) hfixed

/-- A vote against has raised the quorum from 150 to 210 votes. -/
theorem stored_quorum_in_sync_trial :
    ∃ (r : Proposal) (params : QuorumParams),
      (handleEach (withHistory trialHistory) trialLog).proposal? 1 = some r ∧
      r.quorumVotes = .ofUInt64 210 ∧
      params.quorumVotes ⟨r.againstVotes, r.totalSupply⟩ = .ok r.quorumVotes ∧
      Proposal.refreshQuorum r = .ok false r := by
  have hfields : ((handleEach (withHistory trialHistory) trialLog).proposal? 1).map
      (fun r => (r.quorumParams.isSome, r.quorumVotes)) = some (true, .ofUInt64 210) := by
    decide +kernel
  obtain ⟨r, found, hr⟩ := Option.map_eq_some_iff.mp hfields
  obtain ⟨hsome, hvotes⟩ := Prod.mk.inj hr
  obtain ⟨params, hparams⟩ := Option.isSome_iff_exists.mp hsome
  obtain ⟨hdynamic, -⟩ := stored_quorum_in_sync (.withHistory trialHistory) trialLog
    (Registry.get?_eq_some.mp found).1
  obtain ⟨-, -, hquorum, hrefresh⟩ := hdynamic params hparams
  exact ⟨r, params, found, hvotes, hquorum, hrefresh⟩

end Indexer

end DynamicQuorum
