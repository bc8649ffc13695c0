/-
  DynamicQuorum/Proofs/Indexer/ExtraVote.lean
  ===========================================
  **One more vote moves one outcome, in its own direction.**

  Two runs over the same log are compared, one of which has a vote more on its way.  From that
  vote on the two states agree but for one proposal, and on that one up to votes of
  the kind cast.  Every later event keeps this relation, as long as both runs accept it: what
  it makes of a proposal depends on that proposal and the history alone.
-/
import DynamicQuorum.Proofs.Indexer.Sync
import DynamicQuorum.Proofs.Proposal.Sway

namespace DynamicQuorum.Indexer

variable {s t s' t' : Indexer} {e : LoggedEvent} {events : List LoggedEvent} {id : UInt64}
  {kind : VoteSupport} {p : Proposal}

/-- The states agree but for one proposal, which has more votes of one kind in the second. -/
structure Swayed (id : UInt64) (kind : VoteSupport) (s t : Indexer) : Prop where
  history : t.history = s.history
  others : ∀ other, other ≠ id → t.proposal? other = s.proposal? other
  swayed : ∃ p q, s.proposal? id = some p ∧ t.proposal? id = some q ∧ p.Swayed kind q

/-- A vote by itself sways the proposal that it is cast on. -/
theorem Swayed.of_vote {b : Ballot} (vote : e.event = .voteCast b) (h : handle e s = .ok () t) :
    Swayed b.proposalId b.support s t := by
  have hstep := handle_eq_ok.mp h
  have named : e.event.proposalId? = some b.proposalId := by
    rw [vote]
    rfl
  refine ⟨?_, fun other hother => ?_, ?_⟩
  · apply hstep.history_eq
    rw [vote]
    rfl
  · refine hstep.frame fun hnamed => hother ?_
    rw [named] at hnamed
    exact (Option.some.inj hnamed).symm
  · cases found : s.proposal? b.proposalId with
    | none =>
      -- a vote creates nothing
      obtain ⟨a, p, kind, -⟩ := hstep.opens named found
      rw [vote] at kind
      cases kind
    | some p =>
      obtain ⟨q, edit, found'⟩ := hstep.edits named found
      rw [vote] at edit
      cases edit with
      | ballot named count => exact ⟨p, q, rfl, found', .of_countBallot count⟩
      | lifecycle kind => cases kind

/-- An event that both states accept keeps them swayed, for it edits the proposal in both alike. -/
theorem Swayed.step (h : Swayed id kind s t) (hs : Step e s s') (ht : Step e t t') :
    Swayed id kind s' t' := by
  obtain ⟨p, q, hp, hq, hswayed⟩ := h.swayed
  refine ⟨hs.history_local ht h.history,
    fun other hother => hs.proposal?_local ht h.history (h.others other hother), ?_⟩
  by_cases named : e.event.proposalId? = some id
  · obtain ⟨p', edit, hp'⟩ := hs.edits named hp
    obtain ⟨q', edit', hq'⟩ := ht.edits named hq
    exact ⟨p', q', hp', hq', hswayed.edits edit edit'⟩
  · exact ⟨p, q, (hs.frame named).trans hp, (ht.frame named).trans hq, hswayed⟩

theorem Swayed.run (h : Swayed id kind s t) (hs : Accepts s events s')
    (ht : Accepts t events t') : Swayed id kind s' t' := by
  induction hs generalizing t with
  | nil s =>
    cases ht
    exact h
  | cons first run ih =>
    cases ht with
    | cons first' run' => exact ih (h.step (handle_eq_ok.mp first) (handle_eq_ok.mp first')) run'

theorem Accepts.etaIfQueued (start : Initial s) (h : Accepts s events t)
    (found : t.proposal? id = some p) : p.EtaIfQueued :=
  h.stored_of_initial start (fun _ _ _ _ opened => .of_toProposal opened)
    (fun _ _ _ edit hp => hp.edits edit) found

/-- **An extra vote moves the outcome in its own direction only.**  Take a log that is accepted
    both with and without one of its votes.  At every chain position the state of the proposal
    voted on differs between the two runs only as far as a vote of its kind may move
    it, and every other proposal has the same state in both. -/
theorem extra_vote_moves_own_direction {s₁ s₂ : Indexer} {x : LoggedEvent} {b : Ballot}
    {before after : List LoggedEvent} (start : Initial s) (vote : x.event = .voteCast b)
    (without : handleAll (before ++ after) s = .ok () s₁)
    (extra : handleAll (before ++ x :: after) s = .ok () s₂) (view : ChainView) :
    (∃ p₁ p₂, s₁.proposal? b.proposalId = some p₁ ∧ s₂.proposal? b.proposalId = some p₂ ∧
      b.support.Moves (p₁.stateAt view) (p₂.stateAt view)) ∧
    ∀ id, id ≠ b.proposalId →
      (s₂.proposal? id).map (·.stateAt view) = (s₁.proposal? id).map (·.stateAt view) := by
  have hrun₁ := handleAll_eq_ok.mp without
  have hrun₂ := handleAll_eq_ok.mp extra
  obtain ⟨m, hbefore, hafter₁⟩ := accepts_append.mp hrun₁
  obtain ⟨m', hbefore', hafter₂⟩ := accepts_append.mp hrun₂
  -- up to the vote the runs are the same
  obtain rfl : m' = m := by
    have h := handleAll_eq_ok.mpr hbefore
    rw [handleAll_eq_ok.mpr hbefore'] at h
    exact (EStateM.Result.ok.inj h).2
  cases hafter₂ with
  | cons first hafter₂ =>
    have hswayed := (Swayed.of_vote vote first).run hafter₁ hafter₂
    obtain ⟨p₁, p₂, found₁, found₂, hp⟩ := hswayed.swayed
    refine ⟨⟨p₁, p₂, found₁, found₂, ?_⟩, fun id hid => ?_⟩
    · exact hp.moves (hrun₁.inSync start found₁) (hrun₂.inSync start found₂)
        (hrun₁.etaIfQueued start found₁) view
    · rw [hswayed.others id hid]

/-- The vote against turns a proposal that has succeeded into a defeated one. -/
theorem extra_vote_moves_own_direction_trial :
    ∃ s₁ s₂ p₁ p₂,
      handleAll [trialCreation, trialVote 1 .for 160] (withHistory trialHistory) = .ok () s₁ ∧
      handleAll [trialCreation, trialVote 2 .against 60, trialVote 1 .for 160]
        (withHistory trialHistory) = .ok () s₂ ∧
      s₁.proposal? 1 = some p₁ ∧ s₂.proposal? 1 = some p₂ ∧
      p₁.stateAt { block := some 40 } = .succeeded ∧
      p₂.stateAt { block := some 40 } = .defeated ∧
      VoteSupport.Moves .against (p₁.stateAt { block := some 40 })
        (p₂.stateAt { block := some 40 }) := by
  let s₁ := (handleAll [trialCreation, trialVote 1 .for 160]).leaves (withHistory trialHistory)
  let s₂ := (handleAll [trialCreation, trialVote 2 .against 60, trialVote 1 .for 160]).leaves
    (withHistory trialHistory)
  have hwithout : (handleAll ([trialCreation] ++ [trialVote 1 .for 160])).makes
      (withHistory trialHistory) = .ok s₁ := by decide +kernel
  have hextra : (handleAll ([trialCreation] ++ trialVote 2 .against 60 ::
      [trialVote 1 .for 160])).makes (withHistory trialHistory) = .ok s₂ := by decide +kernel
  have hsucceeded : (s₁.proposal? 1).map (·.stateAt { block := some 40 }) = some .succeeded := by
    decide +kernel
  have hdefeated : (s₂.proposal? 1).map (·.stateAt { block := some 40 }) = some .defeated := by
    decide +kernel
  obtain ⟨⟨⟩, without⟩ := InPlace.makes_eq_ok.mp hwithout
  obtain ⟨⟨⟩, extra⟩ := InPlace.makes_eq_ok.mp hextra
  obtain ⟨⟨p₁, p₂, found₁, found₂, hmoves⟩, -⟩ := extra_vote_moves_own_direction
    (b := trialBallot 2 .against 60) (.withHistory trialHistory) rfl without extra
    { block := some 40 }
  replace found₁ : s₁.proposal? 1 = some p₁ := found₁
  replace found₂ : s₂.proposal? 1 = some p₂ := found₂
  rw [found₁] at hsucceeded
  rw [found₂] at hdefeated
  exact ⟨s₁, s₂, p₁, p₂, without, extra, found₁, found₂, Option.some.inj hsucceeded,
    Option.some.inj hdefeated, hmoves⟩

end DynamicQuorum.Indexer
