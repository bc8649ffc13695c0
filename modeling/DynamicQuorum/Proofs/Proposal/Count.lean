/-
  DynamicQuorum/Proofs/Proposal/Count.lean
  ========================================
  **A proposal is a count of ballots.**

  `Counts` relates a proposal to the ballots that made it what it is.  A ballot that is counted
  joins them; one from an account among their voters is refused, so they are from different
  accounts.  Lifecycle events touch neither side.
-/
import DynamicQuorum.Proofs.AddressSet
import DynamicQuorum.Proofs.Proposal.Sync

namespace DynamicQuorum

def votesOf (kind : VoteSupport) : List Ballot → Nat
  | [] => 0
  | b :: rest => (if kind = b.support then b.votes.toNat else 0) + votesOf kind rest

theorem votesOf_append (kind : VoteSupport) (ballots rest : List Ballot) :
    votesOf kind (ballots ++ rest) = votesOf kind ballots + votesOf kind rest := by
  induction ballots with
  | nil => simp [votesOf]
  | cons b ballots ih => simp only [List.cons_append, votesOf, ih, Nat.add_assoc]

def Event.ballotOn? (id : UInt64) : Event → Option Ballot
  | .voteCast b => if b.proposalId = id then some b else none
  | _ => none

theorem Event.ballotOn?_of_other {e : Event} {id : UInt64} (h : e.proposalId? ≠ some id) :
    e.ballotOn? id = none := by
  cases e with
  | voteCast b =>
    have hother : b.proposalId ≠ id := fun hid => h (congrArg some hid)
    simp [ballotOn?, hother]
  | _ => rfl

namespace Proposal

variable {p q : Proposal} {b : Ballot} {ballots : List Ballot}

structure Counts (ballots : List Ballot) (p : Proposal) : Prop where
  tallies : ∀ kind, (p.tally kind).toNat = votesOf kind ballots
  voters : ∀ v, p.hasVoted v = true ↔ v ∈ ballots.map (·.voter)
  single : (ballots.map (·.voter)).Nodup
  size : p.voters.size = ballots.length

/-- Only the tallies and the voters matter. -/
theorem Counts.congr (h : Counts ballots p) (htally : ∀ kind, q.tally kind = p.tally kind)
    (hvoters : q.voters = p.voters) : Counts ballots q := by
  refine ⟨fun kind => ?_, fun v => ?_, h.single, ?_⟩
  · rw [htally, h.tallies]
  · rw [hasVoted, hvoters, ← hasVoted, h.voters]
  · rw [hvoters, h.size]

theorem voters_countBallot (h : countBallot b p = .ok () q) :
    p.voters.contains b.voter = false ∧ q.voters = p.voters.insert b.voter := by
  obtain ⟨hnew, tally, quorum, -, -, rfl⟩ := countBallot_eq_ok.mp h
  exact ⟨hnew, rfl⟩

theorem hasVoted_countBallot (h : countBallot b p = .ok () q) (v : Address) :
    q.hasVoted v = true ↔ v = b.voter ∨ p.hasVoted v = true := by
  obtain ⟨-, hvoters⟩ := voters_countBallot h
  rw [hasVoted, hvoters, AddressSet.contains_insert, ← hasVoted]

/-- A counted ballot joins the others. -/
theorem Counts.countBallot (h : Counts ballots p) (hcount : countBallot b p = .ok () q) :
    Counts (ballots ++ [b]) q := by
  obtain ⟨hnew, hvoters⟩ := voters_countBallot hcount
  have hsingle : b.voter ∉ ballots.map (·.voter) := by
    intro hmem
    have hvoted : p.voters.contains b.voter = true := (h.voters b.voter).mpr hmem
    rw [hnew] at hvoted
    cases hvoted
  refine ⟨fun kind => ?_, fun v => ?_, ?_, ?_⟩
  · rw [toNat_tally_countBallot hcount, h.tallies, votesOf_append]
    rfl
  · rw [hasVoted_countBallot hcount, h.voters]
    simp [or_comm]
  · rw [List.map_append]
    exact List.nodup_append.mpr ⟨h.single, by simp, by simpa using hsingle⟩
  · rw [hvoters, AddressSet.size_insert hnew, h.size, List.length_append]
    rfl

/-- A new proposal has counted nothing. -/
theorem Counts.of_toProposal {a : Announcement} {block : BlockNumber}
    {inForce : Option QuorumParams} (h : a.toProposal block inForce = .ok p) : Counts [] p := by
  have hdraft : Counts [] (a.draft block) := by
    refine ⟨fun kind => ?_, fun v => ?_, List.nodup_nil, rfl⟩
    · cases kind <;> exact Word256.toNat_zero
    · simp [hasVoted, Announcement.draft, create, AddressSet.contains, AddressSet.empty,
        Ascending.empty]
  obtain ⟨supply, rfl⟩ | ⟨supply, params, quorum, -, -, -, -, -, rfl⟩ :=
    Announcement.toProposal_cases h
  · exact hdraft.congr (fun kind => by cases kind <;> rfl) rfl
  · exact hdraft.congr (fun kind => by cases kind <;> rfl) rfl

end Proposal

/-- An edit counts the ballot that its event casts, if it casts one. -/
theorem Event.Edits.counts {e : Event} {p q : Proposal} {ballots : List Ballot}
    (edit : e.Edits p q) (h : p.Counts ballots) :
    q.Counts (ballots ++ (e.ballotOn? p.id).toList) := by
  cases edit with
  | ballot named count =>
    rw [ballotOn?, if_pos named]
    exact h.countBallot count
  | lifecycle kind =>
    have hnone : e.ballotOn? p.id = none := by
      cases e <;> cases kind <;> rfl
    obtain ⟨objectionEnd, eta, status, hf⟩ := lifecycle?_frame kind p
    rw [hnone, hf, Option.toList_none, List.append_nil]
    exact h.congr (fun kind => by cases kind <;> rfl) rfl

end DynamicQuorum
