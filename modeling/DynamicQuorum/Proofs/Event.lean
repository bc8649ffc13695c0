/-
  DynamicQuorum/Proofs/Event.lean
  ===============================
  **The kinds of events.**

  An event creates a proposal, edits a proposal, or changes the parameters.  A proposal is edited
  by a ballot, or by a lifecycle event, which sets up to two of three fields and looks at none.
-/
import DynamicQuorum.Proofs.Proposal.Vote

namespace DynamicQuorum

namespace Event

/-- The proposal that a lifecycle event is about, with what it edits. -/
def lifecycle? : Event → Option (UInt64 × (Proposal → Proposal))
  | .objectionPeriodSet id endBlock => some (id, ({ · with objectionPeriodEnd := endBlock }))
  | .proposalCanceled id => some (id, ({ · with status := .cancelled }))
  | .proposalVetoed id => some (id, ({ · with status := .vetoed }))
  | .proposalQueued id eta => some (id, ({ · with status := .queued, executionEta := some eta }))
  | .proposalExecuted id => some (id, ({ · with status := .executed }))
  | _ => none

def change? : Event → Option ParamsHistory.Change
  | .minQuorumSet _ new => some (.min new)
  | .maxQuorumSet _ new => some (.max new)
  | .coefficientSet _ new => some (.coefficient new)
  | _ => none

def proposalId? : Event → Option UInt64
  | .proposalCreated a => some a.id
  | .voteCast b => some b.proposalId
  | e => e.lifecycle?.map (·.1)

def votesFor (kind : VoteSupport) : Event → Nat
  | .voteCast b => if kind = b.support then b.votes.toNat else 0
  | _ => 0

theorem proposalId?_of_change? {e : Event} {c : ParamsHistory.Change} (h : e.change? = some c) :
    e.proposalId? = none := by
  cases e <;> cases h <;> rfl

theorem kinds (e : Event) :
    (∃ a, e = .proposalCreated a) ∨ (∃ b, e = .voteCast b) ∨
      (∃ id f, e.lifecycle? = some (id, f)) ∨ ∃ c, e.change? = some c := by
  cases e with
  | proposalCreated a => exact .inl ⟨a, rfl⟩
  | voteCast b => exact .inr (.inl ⟨b, rfl⟩)
  | minQuorumSet | maxQuorumSet | coefficientSet => exact .inr (.inr (.inr ⟨_, rfl⟩))
  | _ => exact .inr (.inr (.inl ⟨_, _, rfl⟩))

/-- The event edits the proposal `p`, and makes it `q`. -/
inductive Edits : Event → Proposal → Proposal → Prop
  | ballot {b : Ballot} {p q : Proposal} (named : b.proposalId = p.id)
      (count : Proposal.countBallot b p = .ok () q) : Edits (.voteCast b) p q
  | lifecycle {e : Event} {f : Proposal → Proposal} {p : Proposal}
      (kind : e.lifecycle? = some (p.id, f)) : Edits e p (f p)

variable {e : Event} {id : UInt64} {f : Proposal → Proposal} {p q : Proposal}

/-- A lifecycle event reaches three fields only. -/
theorem lifecycle?_frame (h : e.lifecycle? = some (id, f)) (p : Proposal) :
    ∃ objectionEnd eta status, f p = { p with
      objectionPeriodEnd := objectionEnd
      executionEta := eta
      status := status } := by
  cases e <;> cases h <;> exact ⟨_, _, _, rfl⟩

theorem Edits.id_eq (h : e.Edits p q) : q.id = p.id := by
  cases h with
  | ballot named count => exact Proposal.countBallot_id count
  | lifecycle kind =>
    obtain ⟨objectionEnd, eta, status, hf⟩ := lifecycle?_frame kind p
    rw [hf]

theorem Edits.proposalId? (h : e.Edits p q) : e.proposalId? = some p.id := by
  cases h with
  | ballot named count => exact congrArg some named
  | lifecycle kind => cases e <;> cases kind <;> rfl

theorem Edits.change? (h : e.Edits p q) : e.change? = none := by
  cases h with
  | ballot named count => rfl
  | lifecycle kind => cases e <;> cases kind <;> rfl

theorem Edits.toNat_tally (h : e.Edits p q) (kind : VoteSupport) :
    (q.tally kind).toNat = (p.tally kind).toNat + e.votesFor kind := by
  cases h with
  | ballot named count => exact Proposal.toNat_tally_countBallot count kind
  | lifecycle kind' =>
    obtain ⟨objectionEnd, eta, status, hf⟩ := lifecycle?_frame kind' p
    have hnone : e.votesFor kind = 0 := by
      cases e <;> cases kind' <;> rfl
    rw [hf, hnone]
    cases kind <;> rfl

/-- An event makes at most one proposal of each. -/
theorem Edits.unique {q' : Proposal} (h : e.Edits p q) (h' : e.Edits p q') : q' = q := by
  cases h with
  | ballot named count =>
    cases h' with
    | ballot named' count' =>
      rw [count] at count'
      cases count'
      rfl
    | lifecycle kind' => cases kind'
  | lifecycle kind =>
    cases h' with
    | ballot named' count' => cases kind
    | lifecycle kind' =>
      rw [kind] at kind'
      cases kind'
      rfl

end Event

end DynamicQuorum
