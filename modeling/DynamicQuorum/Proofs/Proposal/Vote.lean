/-
  DynamicQuorum/Proofs/Proposal/Vote.lean
  =======================================
  **What a counted ballot does to its proposal.**

  A ballot is counted when its voter has not voted, the raised tally is a word, and the quorum
  that this tally calls for can be computed.  All of this is looked at before the first write,
  so a refused ballot leaves no trace.  A counted one raises a single tally, may move the
  quorum, adds the voter and activates a pending proposal; nothing else changes.
-/
import DynamicQuorum.Indexer
import DynamicQuorum.Proofs.InPlace
import DynamicQuorum.Proofs.Word256.Sum

namespace DynamicQuorum.Proposal

open InPlace

variable {p q : Proposal} {b : Ballot}

/-! ### Atomicity -/

theorem recordVote_atomic (voter : Address) (support : VoteSupport) (votes : Word256) :
    Atomic (recordVote voter support votes) := by
  refine .after_readOnly .get fun p => ?_
  split
  · exact (ReadOnly.throw _).atomic
  · -- the tally and the quorum are the last that may fail
    refine .after_readOnly (.lift _) fun tally => .after_readOnly (.lift _) fun quorum => ?_
    exact (Unfailing.bind (.modify _) fun _ => .bind (.modify _) fun _ => .modify _).atomic

theorem countBallot_atomic (b : Ballot) : Atomic (countBallot b) :=
  (recordVote_atomic _ _ _).before_unfailing fun _ => .modify _

/-! ### The effect -/

def withVote (p : Proposal) (b : Ballot) (tally : Word256) (quorum : Option Word256) : Proposal :=
  { p with
    forVotes := if b.support = .for then tally else p.forVotes
    againstVotes := if b.support = .against then tally else p.againstVotes
    abstainVotes := if b.support = .abstain then tally else p.abstainVotes
    quorumVotes := quorum.getD p.quorumVotes
    status := if p.status = .pending then .active else p.status
    voters := p.voters.insert b.voter }

/-- A vote is counted if its voter is new, its tally is a word, and the quorum can be computed. -/
theorem recordVote_eq_ok {voter : Address} {support : VoteSupport} {votes : Word256} :
    recordVote voter support votes p = .ok () q ↔ p.hasVoted voter = false ∧
      ∃ tally quorum, p.raisedTally support votes = .ok tally ∧
        p.quorumAfter support tally = .ok quorum ∧
        q = { p.setTally support tally with
          quorumVotes := quorum.getD (p.setTally support tally).quorumVotes
          voters := (p.setTally support tally).voters.insert voter } := by
  rw [recordVote, bind_run, get_run]
  change (if p.hasVoted voter then _ else _ : InPlace _ _ _) p = _ ↔ _
  cases p.hasVoted voter with
  | true => simp
  | false =>
    rw [if_neg Bool.false_ne_true]
    simp only [bind_eq_ok, liftM_eq_ok]
    constructor
    · rintro ⟨tally, _, ⟨htally, rfl⟩, quorum, _, ⟨hquorum, rfl⟩, ⟨⟩, _, ⟨⟩, ⟨⟩, _, ⟨⟩, ⟨⟩⟩
      exact ⟨trivial, tally, quorum, htally, hquorum, rfl⟩
    · rintro ⟨-, tally, quorum, htally, hquorum, rfl⟩
      exact ⟨tally, _, ⟨htally, rfl⟩, quorum, _, ⟨hquorum, rfl⟩, (), _, rfl, (), _, rfl, rfl⟩

/-- A vote is refused for its voter, or else for its tally, or else for the quorum of that tally. -/
theorem recordVote_eq_error {voter : Address} {support : VoteSupport} {votes : Word256}
    {cause : GovernanceError} :
    recordVote voter support votes p = .error cause q ↔ q = p ∧
      (p.hasVoted voter = true ∧ cause = .alreadyVoted ∨
        p.hasVoted voter = false ∧ (p.raisedTally support votes = .error cause ∨
          ∃ tally, p.raisedTally support votes = .ok tally ∧
            p.quorumAfter support tally = .error cause)) := by
  rw [recordVote, bind_run, get_run]
  change (if p.hasVoted voter then _ else _ : InPlace _ _ _) p = _ ↔ _
  cases p.hasVoted voter with
  | true => simp [eq_comm, and_comm]
  | false =>
    rw [if_neg Bool.false_ne_true]
    simp only [bind_eq_error, liftM_eq_error, liftM_eq_ok]
    constructor
    · rintro (⟨htally, rfl⟩ | ⟨tally, _, ⟨htally, rfl⟩, ⟨hquorum, rfl⟩ | ⟨_, _, -, h⟩⟩)
      · exact ⟨rfl, .inr ⟨trivial, .inl htally⟩⟩
      · exact ⟨rfl, .inr ⟨trivial, .inr ⟨tally, htally, hquorum⟩⟩⟩
      · -- the three writes are never refused
        rcases h with ⟨⟨⟩⟩ | ⟨_, _, -, ⟨⟨⟩⟩ | ⟨_, _, -, ⟨⟩⟩⟩
    · rintro ⟨rfl, ⟨⟨⟩, -⟩ | ⟨-, htally | ⟨tally, htally, hquorum⟩⟩⟩
      · exact .inl ⟨htally, rfl⟩
      · exact .inr ⟨tally, _, ⟨htally, rfl⟩, .inl ⟨hquorum, rfl⟩⟩

theorem countBallot_eq_ok :
    countBallot b p = .ok () q ↔ p.hasVoted b.voter = false ∧
      ∃ tally quorum, p.raisedTally b.support b.votes = .ok tally ∧
        p.quorumAfter b.support tally = .ok quorum ∧ q = p.withVote b tally quorum := by
  have hactive : ∀ {r : Proposal} {tally : Word256} {quorum : Option Word256},
      r = { p.setTally b.support tally with
        quorumVotes := quorum.getD (p.setTally b.support tally).quorumVotes
        voters := (p.setTally b.support tally).voters.insert b.voter } →
      (if r.status = .pending then { r with status := .active } else r) =
        p.withVote b tally quorum := by
    rintro r tally quorum rfl
    cases hsupport : b.support <;> by_cases hpending : p.status = .pending <;>
      simp [withVote, setTally, hsupport, hpending]
  rw [countBallot, bind_eq_ok]
  constructor
  · rintro ⟨⟨⟩, r, hvote, ⟨⟩⟩
    obtain ⟨hvoted, tally, quorum, htally, hquorum, hr⟩ := recordVote_eq_ok.mp hvote
    exact ⟨hvoted, tally, quorum, htally, hquorum, hactive hr⟩
  · rintro ⟨hvoted, tally, quorum, htally, hquorum, rfl⟩
    refine ⟨(), _, recordVote_eq_ok.mpr ⟨hvoted, tally, quorum, htally, hquorum, rfl⟩, ?_⟩
    rw [modify_run, hactive rfl]

theorem countBallot_id (h : countBallot b p = .ok () q) : q.id = p.id := by
  obtain ⟨-, tally, quorum, -, -, rfl⟩ := countBallot_eq_ok.mp h
  rfl

/-! ### Tallies -/

theorem raisedTally_eq_ok {support : VoteSupport} {votes tally : Word256} :
    p.raisedTally support votes = .ok tally ↔
      tally.toNat = (p.tally support).toNat + votes.toNat := by
  rw [← Word256.add?_eq_some, raisedTally]
  cases (p.tally support).add? votes with
  | none => exact ⟨nofun, nofun⟩
  | some sum => rw [Except.ok.injEq, Option.some_inj]

theorem tally_withVote (p : Proposal) (b : Ballot) (tally : Word256) (quorum : Option Word256)
    (kind : VoteSupport) :
    (p.withVote b tally quorum).tally kind = if kind = b.support then tally else p.tally kind := by
  cases kind <;> simp [Proposal.tally, withVote, eq_comm]

/-- A counted ballot raises one tally by its votes. -/
theorem toNat_tally_countBallot (h : countBallot b p = .ok () q) (kind : VoteSupport) :
    (q.tally kind).toNat =
      (p.tally kind).toNat + if kind = b.support then b.votes.toNat else 0 := by
  obtain ⟨-, tally, quorum, htally, -, rfl⟩ := countBallot_eq_ok.mp h
  rw [tally_withVote]
  split
  next hsame =>
    rw [hsame]
    exact raisedTally_eq_ok.mp htally
  next => rfl

end DynamicQuorum.Proposal
