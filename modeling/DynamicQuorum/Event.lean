/-
  DynamicQuorum/Event.lean
  ========================
  **What a governor reports.**

  Ten kinds of events: a proposal is created, a vote is cast, one of the three quorum
  parameters is set, an objection period is opened, and a proposal is canceled, vetoed,
  queued or executed.
-/
import DynamicQuorum.Proposal.Registry

namespace DynamicQuorum

/-- The announcement of a new proposal.  Voting power is read at the snapshot block, which is the
    start block unless given.  A governor with a dynamic quorum reports the supply there, and the
    quorum in any case. -/
structure Announcement where
  id : UInt64
  proposer : Address
  startBlock : BlockNumber
  endBlock : BlockNumber
  updatePeriodEnd : BlockNumber
  voteSnapshotBlock : Option BlockNumber
  quorumVotes : Word256
  totalSupply : Option Word256
  onTimelockV1 : Bool
deriving DecidableEq, Repr, Inhabited

structure Ballot where
  voter : Address
  proposalId : UInt64
  support : VoteSupport
  votes : Word256
deriving DecidableEq, Repr, Inhabited

/-- An event of a governor. -/
inductive Event where
  | proposalCreated (announcement : Announcement)
  | voteCast (ballot : Ballot)
  | minQuorumSet (old new : BasisPoints)
  | maxQuorumSet (old new : BasisPoints)
  | coefficientSet (old new : Word256)
  | objectionPeriodSet (id : UInt64) (endBlock : BlockNumber)
  | proposalCanceled (id : UInt64)
  | proposalVetoed (id : UInt64)
  | proposalQueued (id : UInt64) (eta : UInt64)
  | proposalExecuted (id : UInt64)
deriving DecidableEq, Repr, Inhabited

structure LoggedEvent where
  block : BlockNumber
  timestamp : UInt64
  event : Event
deriving DecidableEq, Repr, Inhabited

/-! ### The written form in journals -/

namespace Event

def describeFields (name : String) (fields : List (String × String)) : String :=
  name ++ " \x7b " ++
    String.intercalate ", " (fields.map fun field => field.1 ++ ": " ++ field.2) ++ " \x7d"

def describeOption (value : Option String) : String :=
  match value with
  | some text => "Some(" ++ text ++ ")"
  | none => "None"

/-- The event with all its fields, as journals show it. -/
def describe : Event → String
  | .proposalCreated a => describeFields "ProposalCreated"
      [("id", toString a.id), ("proposer", a.proposer.describe),
        ("start_block", toString a.startBlock), ("end_block", toString a.endBlock),
        ("update_period_end_block", toString a.updatePeriodEnd),
        ("vote_snapshot_block", describeOption (a.voteSnapshotBlock.map toString)),
        ("quorum_votes", a.quorumVotes.describe),
        ("total_supply", describeOption (a.totalSupply.map Word256.describe)),
        ("on_timelock_v1", toString a.onTimelockV1)]
  | .voteCast b => describeFields "VoteCast"
      [("voter", b.voter.describe), ("proposal_id", toString b.proposalId),
        ("support", b.support.name), ("votes", b.votes.describe)]
  | .minQuorumSet old new => describeFields "MinQuorumVotesBpsSet"
      [("old_bps", old.describe), ("new_bps", new.describe)]
  | .maxQuorumSet old new => describeFields "MaxQuorumVotesBpsSet"
      [("old_bps", old.describe), ("new_bps", new.describe)]
  | .coefficientSet old new => describeFields "QuorumCoefficientSet"
      [("old_coefficient", old.describe), ("new_coefficient", new.describe)]
  | .objectionPeriodSet id endBlock => describeFields "ProposalObjectionPeriodSet"
      [("id", toString id), ("objection_period_end_block", toString endBlock)]
  | .proposalCanceled id => describeFields "ProposalCanceled" [("id", toString id)]
  | .proposalVetoed id => describeFields "ProposalVetoed" [("id", toString id)]
  | .proposalQueued id eta => describeFields "ProposalQueued"
      [("id", toString id), ("eta", toString eta)]
  | .proposalExecuted id => describeFields "ProposalExecuted" [("id", toString id)]

end Event

end DynamicQuorum
