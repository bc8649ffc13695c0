/-
  DynamicQuorum/Proofs/Indexer/Conservation.lean
  ==============================================
  **No vote is lost, counted twice, or counted for another proposal.**

  A stored proposal is the count of the accepted ballots on it.  Before it is created there are
  none, since a ballot on a missing proposal is refused; after that every accepted event
  either leaves the proposal alone and casts no ballot on it, or edits it.
-/
import DynamicQuorum.Proofs.Indexer.Run
import DynamicQuorum.Proofs.Proposal.Count

namespace DynamicQuorum.Indexer

variable {s t : Indexer} {e : LoggedEvent} {events : List LoggedEvent} {ballots : List Ballot}
  {id : UInt64} {p : Proposal}

def ballotsOn (id : UInt64) (events : List LoggedEvent) : List Ballot :=
  events.filterMap fun e => e.event.ballotOn? id

theorem ballotsOn_cons (id : UInt64) (e : LoggedEvent) (rest : List LoggedEvent) :
    ballotsOn id (e :: rest) = (e.event.ballotOn? id).toList ++ ballotsOn id rest := by
  rw [ballotsOn, List.filterMap_cons]
  cases e.event.ballotOn? id <;> rfl

structure Conserves (id : UInt64) (ballots : List Ballot) (s : Indexer) : Prop where
  counts : ∀ p, s.proposal? id = some p → p.Counts ballots
  missing : s.proposal? id = none → ballots = []

theorem Initial.conserves (start : Initial s) : Conserves id [] s := by
  refine ⟨fun p found => ?_, fun _ => rfl⟩
  rw [start.proposal? id] at found
  cases found

theorem Conserves.step (h : Conserves id ballots s) (hstep : Step e s t) :
    Conserves id (ballots ++ (e.event.ballotOn? id).toList) t := by
  by_cases named : e.event.proposalId? = some id
  · cases hbefore : s.proposal? id with
    | none =>
      -- the proposal is created, and no ballot was cast on it so far
      obtain ⟨a, p, kind, -, opened, found⟩ := hstep.opens named hbefore
      rw [h.missing hbefore, kind]
      refine ⟨fun q found' => ?_, fun _ => rfl⟩
      cases found.symm.trans found'
      exact .of_toProposal opened
    | some p =>
      obtain ⟨q, edit, found⟩ := hstep.edits named hbefore
      obtain rfl := id_of_proposal? hbefore
      refine ⟨fun q' found' => ?_, fun missing => ?_⟩
      · cases found.symm.trans found'
        exact edit.counts (h.counts p hbefore)
      · cases found.symm.trans missing
  · rw [Event.ballotOn?_of_other named, Option.toList_none, List.append_nil]
    have hframe := hstep.frame named
    refine ⟨fun p found => h.counts p ?_, fun missing => h.missing ?_⟩
    · rw [← hframe, found]
    · rw [← hframe, missing]

theorem Conserves.run (h : Conserves id ballots s) (hrun : Accepts s events t) :
    Conserves id (ballots ++ ballotsOn id events) t := by
  induction hrun generalizing ballots with
  | nil s => simpa [ballotsOn] using h
  | cons first run ih =>
    rw [ballotsOn_cons, ← List.append_assoc]
    exact ih (h.step (handle_eq_ok.mp first))

/-- **Votes are conserved.**  Handle any log past its refusals.  The three tallies of a stored
    proposal are the exact sums of the votes in the accepted ballots on it; its voters are the
    voters of these ballots; and no account is among them twice, so there are as many voters as
    accepted ballots. -/
theorem votes_are_conserved (start : Initial s) (events : List LoggedEvent)
    (stored : (handleEach s events).proposal? id = some p) :
    (p.forVotes.toNat = votesOf .for (ballotsOn id (accepted s events)) ∧
      p.againstVotes.toNat = votesOf .against (ballotsOn id (accepted s events)) ∧
      p.abstainVotes.toNat = votesOf .abstain (ballotsOn id (accepted s events))) ∧
    (∀ v, v ∈ p.voters.toList ↔ v ∈ (ballotsOn id (accepted s events)).map (·.voter)) ∧
    ((ballotsOn id (accepted s events)).map (·.voter)).Nodup ∧
    p.voters.size = (ballotsOn id (accepted s events)).length := by
  have hcounts := (start.conserves.run (accepts_accepted s events)).counts p stored
  rw [List.nil_append] at hcounts
  refine ⟨⟨hcounts.tallies .for, hcounts.tallies .against, hcounts.tallies .abstain⟩,
    fun v => ?_, hcounts.single, hcounts.size⟩
  rw [← hcounts.voters v, Proposal.hasVoted, AddressSet.contains, decide_eq_true_iff]

/-- Of three ballots in the small log two are counted. -/
theorem votes_are_conserved_trial :
    ∃ p, (handleEach (withHistory trialHistory) trialLog).proposal? 1 = some p ∧
      p.forVotes.toNat = 160 ∧ p.againstVotes.toNat = 60 ∧ p.abstainVotes.toNat = 0 ∧
      p.voters.size = 2 := by
  have hstored : ((handleEach (withHistory trialHistory) trialLog).proposal? 1).isSome = true := by
    decide +kernel
  have hballots : ballotsOn 1 (accepted (withHistory trialHistory) trialLog) =
      [trialBallot 1 .for 160, trialBallot 2 .against 60] := by decide +kernel
  obtain ⟨p, stored⟩ := Option.isSome_iff_exists.mp hstored
  obtain ⟨⟨hfor, hagainst, habstain⟩, -, -, hsize⟩ :=
    votes_are_conserved (.withHistory trialHistory) trialLog stored
  rw [hballots] at hfor hagainst habstain hsize
  refine ⟨p, stored, hfor.trans ?_, hagainst.trans ?_, habstain.trans ?_, hsize⟩
  all_goals decide +kernel

end DynamicQuorum.Indexer
