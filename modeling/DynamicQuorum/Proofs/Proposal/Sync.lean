/-
  DynamicQuorum/Proofs/Proposal/Sync.lean
  =======================================
  **The stored quorum is the one its parameters call for.**

  A proposal with parameters stores its quorum beside the votes that the quorum depends on.
  The two are in step from its creation on, which computes the quorum without votes, and stay
  so: the quorum depends on the votes against and on the supply alone, the supply is fixed,
  and a vote against stores the quorum of the tally that it is about to store.  A proposal
  without parameters never changes its quorum.
-/
import DynamicQuorum.Proofs.Event

namespace DynamicQuorum

open InPlace

namespace Proposal

variable {p q : Proposal} {b : Ballot} {params : QuorumParams}

/-- Parameters make the quorum a dynamic one, and are sound, and the stored quorum is theirs. -/
def InSync (p : Proposal) : Prop :=
  ∀ params, p.quorumParams = some params →
    params.IsOrdered ∧ params.isDynamic ∧ params.quorumVotes p.snapshot = .ok p.quorumVotes

/-! ### The quorum of a tally -/

theorem dynamicParams?_eq_some :
    p.dynamicParams? = some params ↔ p.quorumParams = some params ∧ params.isDynamic = true :=
  Option.filter_eq_some_iff

/-- The quorum of a tally is fixed, or it is the one that dynamic parameters call for. -/
theorem dynamicQuorumAt_eq_ok {against : Word256} {quorum : Option Word256} :
    p.dynamicQuorumAt against = .ok quorum ↔ (p.dynamicParams? = none ∧ quorum = none) ∨
      ∃ params votes, p.dynamicParams? = some params ∧
        params.quorumVotes ⟨against, p.totalSupply⟩ = .ok votes ∧ quorum = some votes := by
  rw [dynamicQuorumAt]
  cases p.dynamicParams? with
  | none => simp [eq_comm]
  | some params =>
    cases hvotes : params.quorumVotes ⟨against, p.totalSupply⟩ with
    | error cause => simp [Except.map, hvotes]
    | ok votes => simp [Except.map, hvotes, eq_comm]

theorem dynamicQuorumAt_eq_error {against : Word256} {cause : GovernanceError} :
    p.dynamicQuorumAt against = .error cause ↔ ∃ params, p.dynamicParams? = some params ∧
      params.quorumVotes ⟨against, p.totalSupply⟩ = .error cause := by
  rw [dynamicQuorumAt]
  cases p.dynamicParams? with
  | none => simp
  | some params =>
    cases hvotes : params.quorumVotes ⟨against, p.totalSupply⟩ with
    | error cause => simp [Except.map, hvotes]
    | ok votes => simp [Except.map, hvotes]

theorem dynamicQuorumAt_of_none (h : p.quorumParams = none) (against : Word256) :
    p.dynamicQuorumAt against = .ok none := by
  refine dynamicQuorumAt_eq_ok.mpr (.inl ⟨?_, rfl⟩)
  rw [dynamicParams?, h]
  rfl

theorem dynamicQuorumAt_of_some (h : p.quorumParams = some params) (hdynamic : params.isDynamic)
    {against : Word256} {quorum : Option Word256} :
    p.dynamicQuorumAt against = .ok quorum ↔
      ∃ votes, quorum = some votes ∧ params.quorumVotes ⟨against, p.totalSupply⟩ = .ok votes := by
  rw [dynamicQuorumAt_eq_ok, dynamicParams?_eq_some.mpr ⟨h, hdynamic⟩]
  constructor
  · rintro (⟨⟨⟩, -⟩ | ⟨_, votes, ⟨⟩, hvotes, rfl⟩)
    exact ⟨votes, rfl, hvotes⟩
  · rintro ⟨votes, rfl, hvotes⟩
    exact .inr ⟨params, votes, rfl, hvotes, rfl⟩

theorem refreshQuorum_eq_ok {changed : Bool} :
    refreshQuorum p = .ok changed q ↔ ∃ quorum, p.dynamicQuorumAt p.againstVotes = .ok quorum ∧
      changed = decide (quorum.getD p.quorumVotes ≠ p.quorumVotes) ∧
      q = { p with quorumVotes := quorum.getD p.quorumVotes } := by
  rw [refreshQuorum, bind_run, get_run]
  change (liftM (p.dynamicQuorumAt p.againstVotes) >>= _ : InPlace _ _ _) p = _ ↔ _
  simp only [bind_eq_ok, liftM_eq_ok]
  constructor
  · rintro ⟨quorum, _, ⟨hquorum, rfl⟩, h⟩
    cases quorum with
    | none =>
      cases h
      exact ⟨none, hquorum, by simp, rfl⟩
    | some quorum =>
      cases h
      exact ⟨some quorum, hquorum, rfl, rfl⟩
  · rintro ⟨quorum, hquorum, rfl, rfl⟩
    refine ⟨quorum, p, ⟨hquorum, rfl⟩, ?_⟩
    cases quorum with
    | none => simp
    | some quorum => rfl

theorem refreshQuorum_eq_error {cause : GovernanceError} :
    refreshQuorum p = .error cause q ↔ p.dynamicQuorumAt p.againstVotes = .error cause ∧ q = p := by
  rw [refreshQuorum, bind_run, get_run]
  change (liftM (p.dynamicQuorumAt p.againstVotes) >>= _ : InPlace _ _ _) p = _ ↔ _
  rw [bind_eq_error, liftM_eq_error, or_iff_left]
  -- nothing is refused once the quorum is known
  rintro ⟨quorum, t, -, h⟩
  cases quorum <;> cases h

/-- A proposal in sync has nothing to refresh. -/
theorem InSync.refreshQuorum (h : p.InSync) : Proposal.refreshQuorum p = .ok false p := by
  cases hparams : p.quorumParams with
  | none => exact refreshQuorum_eq_ok.mpr ⟨none, dynamicQuorumAt_of_none hparams _, by simp, rfl⟩
  | some params =>
    obtain ⟨-, hdynamic, hquorum⟩ := h params hparams
    exact refreshQuorum_eq_ok.mpr ⟨some p.quorumVotes,
      (dynamicQuorumAt_of_some hparams hdynamic).mpr ⟨_, rfl, hquorum⟩, by simp, rfl⟩

/-- The votes against decide the quorum. -/
theorem InSync.quorumVotes_eq (hp : p.InSync) (hq : q.InSync)
    (hparams : q.quorumParams = p.quorumParams) (hsupply : q.totalSupply = p.totalSupply)
    (hagainst : q.againstVotes = p.againstVotes)
    (hfixed : p.quorumParams = none → q.quorumVotes = p.quorumVotes) :
    q.quorumVotes = p.quorumVotes := by
  cases hdynamic : p.quorumParams with
  | none => exact hfixed hdynamic
  | some params =>
    obtain ⟨-, -, hvotes⟩ := hp params hdynamic
    obtain ⟨-, -, hvotes'⟩ := hq params (hparams.trans hdynamic)
    rw [snapshot, hagainst, hsupply] at hvotes'
    rw [snapshot, hvotes'] at hvotes
    exact Except.ok.inj hvotes

/-! ### Votes -/

theorem quorumAfter_of_none (h : p.quorumParams = none) (support : VoteSupport)
    (tally : Word256) : p.quorumAfter support tally = .ok none := by
  rw [quorumAfter, dynamicQuorumAt_of_none h, ite_self]

/-- The quorum that a ballot stores is that of the tally it is about to store. -/
theorem InSync.withVote {tally : Word256} {quorum : Option Word256} (h : p.InSync)
    (hquorum : p.quorumAfter b.support tally = .ok quorum) :
    (p.withVote b tally quorum).InSync := by
  intro params (hparams : p.quorumParams = some params)
  obtain ⟨hordered, hdynamic, hstored⟩ := h params hparams
  refine ⟨hordered, hdynamic, ?_⟩
  rw [quorumAfter] at hquorum
  split at hquorum
  next hagainst =>
    -- the votes against move, and the quorum of the new tally is stored
    obtain ⟨votes, rfl, hvotes⟩ := (dynamicQuorumAt_of_some hparams hdynamic).mp hquorum
    simpa [snapshot, Proposal.withVote, hagainst] using hvotes
  next hother =>
    -- neither the votes against nor the quorum moves
    cases hquorum
    simpa [snapshot, Proposal.withVote, hother] using hstored

theorem InSync.countBallot (h : p.InSync) (hcount : Proposal.countBallot b p = .ok () q) :
    q.InSync := by
  obtain ⟨-, tally, quorum, -, hquorum, rfl⟩ := countBallot_eq_ok.mp hcount
  exact h.withVote hquorum

/-- Ballots keep a fixed quorum. -/
theorem countBallot_quorumVotes (hfixed : p.quorumParams = none)
    (hcount : countBallot b p = .ok () q) : q.quorumVotes = p.quorumVotes := by
  obtain ⟨-, tally, quorum, -, hquorum, rfl⟩ := countBallot_eq_ok.mp hcount
  rw [quorumAfter_of_none hfixed] at hquorum
  cases hquorum
  rfl

/-! ### Creation -/

theorem withDynamicQuorum_of_isOrdered (h : params.IsOrdered) {supply : Word256} :
    p.withDynamicQuorum supply params =
      (Proposal.refreshQuorum).makes
        { p with totalSupply := supply, quorumParams := some params } := by
  rw [withDynamicQuorum, QuorumParams.validate, if_pos h]
  rfl

theorem withDynamicQuorum_of_not_isOrdered (h : ¬ params.IsOrdered) {supply : Word256} :
    p.withDynamicQuorum supply params =
      .error (.invalidParameters (.inverted params.maxBps.toNat params.minBps.toNat)) := by
  rw [withDynamicQuorum, QuorumParams.validate, if_neg h]
  rfl

/-- Sound parameters are attached if the quorum of the votes so far can be computed. -/
theorem withDynamicQuorum_eq_ok {supply : Word256} :
    p.withDynamicQuorum supply params = .ok q ↔ params.IsOrdered ∧
      ∃ quorum, { p with totalSupply := supply, quorumParams := some params }.dynamicQuorumAt
          p.againstVotes = .ok quorum ∧
        q = { p with
          totalSupply := supply
          quorumParams := some params
          quorumVotes := quorum.getD p.quorumVotes } := by
  by_cases hordered : params.IsOrdered
  · rw [withDynamicQuorum_of_isOrdered hordered, makes_eq_ok]
    constructor
    · rintro ⟨changed, hrefresh⟩
      obtain ⟨quorum, hquorum, -, rfl⟩ := refreshQuorum_eq_ok.mp hrefresh
      exact ⟨hordered, quorum, hquorum, rfl⟩
    · rintro ⟨-, quorum, hquorum, rfl⟩
      exact ⟨_, refreshQuorum_eq_ok.mpr ⟨quorum, hquorum, rfl, rfl⟩⟩
  · rw [withDynamicQuorum_of_not_isOrdered hordered]
    exact ⟨nofun, fun h => absurd h.1 hordered⟩

theorem withDynamicQuorum_eq_error (h : params.IsOrdered) {supply : Word256}
    {cause : GovernanceError} :
    p.withDynamicQuorum supply params = .error cause ↔
      { p with totalSupply := supply, quorumParams := some params }.dynamicQuorumAt
        p.againstVotes = .error cause := by
  rw [withDynamicQuorum_of_isOrdered h, makes_eq_error]
  simp only [refreshQuorum_eq_error, exists_and_left, exists_eq, and_true]

end Proposal

namespace Announcement

variable {a : Announcement} {block : BlockNumber} {inForce : Option QuorumParams} {p : Proposal}

/-- An announced proposal keeps the reported quorum, unless there are a supply and dynamic
    parameters: then it takes these, which must be sound, and their quorum without votes. -/
theorem toProposal_cases (h : a.toProposal block inForce = .ok p) :
    (∃ supply, p = { a.draft block with totalSupply := supply }) ∨
      ∃ supply params quorum, a.totalSupply = some supply ∧ inForce = some params ∧
        params.isDynamic ∧ params.IsOrdered ∧
        params.quorumVotes ⟨.zero, supply⟩ = .ok quorum ∧
        p = { a.draft block with
          totalSupply := supply
          quorumParams := some params
          quorumVotes := quorum } := by
  rw [toProposal] at h
  split at h
  next =>
    cases h
    exact .inl ⟨.zero, rfl⟩
  next supply hsupply =>
    split at h
    next =>
      cases h
      exact .inl ⟨supply, rfl⟩
    next params hparams =>
      obtain ⟨hinForce, hdynamic⟩ := Option.filter_eq_some_iff.mp hparams
      obtain ⟨hordered, quorum, hquorum, rfl⟩ := Proposal.withDynamicQuorum_eq_ok.mp h
      obtain ⟨votes, rfl, hvotes⟩ := (Proposal.dynamicQuorumAt_of_some rfl hdynamic).mp hquorum
      exact .inr ⟨supply, params, votes, hsupply, hinForce, hdynamic, hordered, hvotes, rfl⟩

theorem toProposal_id (h : a.toProposal block inForce = .ok p) : p.id = a.id := by
  obtain ⟨supply, rfl⟩ | ⟨supply, params, quorum, -, -, -, -, -, rfl⟩ := toProposal_cases h
  · rfl
  · rfl

/-- A new proposal is in sync. -/
theorem toProposal_inSync (h : a.toProposal block inForce = .ok p) : p.InSync := by
  obtain ⟨supply, rfl⟩ | ⟨supply, params, quorum, -, -, hdynamic, hordered, hquorum, rfl⟩ :=
    toProposal_cases h
  · intro params hparams
    cases hparams
  · intro _ hparams
    cases hparams
    exact ⟨hordered, hdynamic, hquorum⟩

/-- A new proposal without parameters has the reported quorum. -/
theorem toProposal_quorumVotes (h : a.toProposal block inForce = .ok p)
    (hfixed : p.quorumParams = none) : p.quorumVotes = a.quorumVotes := by
  obtain ⟨supply, rfl⟩ | ⟨supply, params, quorum, -, -, -, -, -, rfl⟩ := toProposal_cases h
  · rfl
  · cases hfixed

end Announcement

/-! ### Edits -/

namespace Event

variable {e : Event} {p q : Proposal}

/-- Edits leave the parameters of a proposal alone. -/
theorem Edits.quorumParams (h : e.Edits p q) : q.quorumParams = p.quorumParams := by
  cases h with
  | ballot named count =>
    obtain ⟨-, tally, quorum, -, -, rfl⟩ := Proposal.countBallot_eq_ok.mp count
    rfl
  | lifecycle kind =>
    obtain ⟨objectionEnd, eta, status, hf⟩ := lifecycle?_frame kind p
    rw [hf]

theorem Edits.inSync (h : e.Edits p q) (hp : p.InSync) : q.InSync := by
  cases h with
  | ballot named count => exact hp.countBallot count
  | lifecycle kind =>
    obtain ⟨objectionEnd, eta, status, hf⟩ := lifecycle?_frame kind p
    rw [hf]
    exact hp

theorem Edits.quorumVotes (h : e.Edits p q) (hfixed : p.quorumParams = none) :
    q.quorumVotes = p.quorumVotes := by
  cases h with
  | ballot named count => exact Proposal.countBallot_quorumVotes hfixed count
  | lifecycle kind =>
    obtain ⟨objectionEnd, eta, status, hf⟩ := lifecycle?_frame kind p
    rw [hf]

end Event

end DynamicQuorum
