/-
  DynamicQuorum/Proposal/Basic.lean
  =================================
  **Proposals, their votes and their quorum.**

  A proposal collects the votes for it, against it and abstaining, each account voting once.
  One with a dynamic quorum carries the parameters in force when it was created; its
  quorum follows the votes against it.
-/
import DynamicQuorum.AddressSet
import DynamicQuorum.InPlace
import DynamicQuorum.Proposal.State
import DynamicQuorum.Quorum.History

namespace DynamicQuorum

/-- A proposal as the events so far have left it.  The periods end with their last blocks, or
    at zero when there is none, and a supply that is not known is zero.  Only a dynamic quorum has
    parameters, and only a queued proposal an ETA, in seconds. -/
structure Proposal where
  id : UInt64
  proposer : Address
  createdBlock : BlockNumber
  startBlock : BlockNumber
  endBlock : BlockNumber
  updatePeriodEnd : BlockNumber
  objectionPeriodEnd : BlockNumber
  voteSnapshotBlock : BlockNumber
  forVotes : Word256
  againstVotes : Word256
  abstainVotes : Word256
  totalSupply : Word256
  quorumVotes : Word256
  quorumParams : Option QuorumParams
  executionEta : Option UInt64
  status : ProposalStatus
  onTimelockV1 : Bool
  voters : AddressSet
deriving DecidableEq, Inhabited

namespace Proposal

/-- A pending proposal with a fixed quorum and no votes. -/
def create (id : UInt64) (proposer : Address) (createdBlock startBlock endBlock : BlockNumber)
    (quorumVotes : Word256) : Proposal where
  id := id
  proposer := proposer
  createdBlock := createdBlock
  startBlock := startBlock
  endBlock := endBlock
  updatePeriodEnd := 0
  objectionPeriodEnd := 0
  voteSnapshotBlock := startBlock
  forVotes := .zero
  againstVotes := .zero
  abstainVotes := .zero
  totalSupply := .zero
  quorumVotes := quorumVotes
  quorumParams := none
  executionEta := none
  status := .pending
  onTimelockV1 := false
  voters := .empty

/-! ### The quorum -/

def snapshot (p : Proposal) : VoteSnapshot := ⟨p.againstVotes, p.totalSupply⟩

/-- The parameters, if they make the quorum depend on the votes. -/
def dynamicParams? (p : Proposal) : Option QuorumParams := p.quorumParams.filter (·.isDynamic)

/-- The quorum that `againstVotes` votes against would call for; `none` if it is fixed. -/
def dynamicQuorumAt (p : Proposal) (againstVotes : Word256) :
    Except GovernanceError (Option Word256) :=
  match p.dynamicParams? with
  | none => .ok none
  | some params => (params.quorumVotes ⟨againstVotes, p.totalSupply⟩).map some

/-- Recompute a dynamic quorum, and tell whether it changed. -/
def refreshQuorum : InPlace GovernanceError Proposal Bool := do
  let p ← get
  match ← p.dynamicQuorumAt p.againstVotes with
  | none => return false
  | some quorum =>
    set { p with quorumVotes := quorum }
    return quorum ≠ p.quorumVotes

def withDynamicQuorum (p : Proposal) (supply : Word256) (params : QuorumParams) :
    Except GovernanceError Proposal := do
  params.validate
  refreshQuorum.makes { p with totalSupply := supply, quorumParams := some params }

/-! ### Votes -/

def tally (p : Proposal) : VoteSupport → Word256
  | .against => p.againstVotes
  | .for => p.forVotes
  | .abstain => p.abstainVotes

def setTally (p : Proposal) (support : VoteSupport) (votes : Word256) : Proposal :=
  match support with
  | .against => { p with againstVotes := votes }
  | .for => { p with forVotes := votes }
  | .abstain => { p with abstainVotes := votes }

def hasVoted (p : Proposal) (voter : Address) : Bool := p.voters.contains voter

def raisedTally (p : Proposal) (support : VoteSupport) (votes : Word256) :
    Except GovernanceError Word256 :=
  match (p.tally support).add? votes with
  | some tally => .ok tally
  | none => .error (.overflow .tally)

/-- The quorum that a new tally of one kind calls for; `none` if the quorum stays as it is. -/
def quorumAfter (p : Proposal) (support : VoteSupport) (tally : Word256) :
    Except GovernanceError (Option Word256) :=
  if support = .against then p.dynamicQuorumAt tally else .ok none

/-- Count a vote. -/
def recordVote (voter : Address) (support : VoteSupport) (votes : Word256) :
    InPlace GovernanceError Proposal Unit := do
  let p ← get
  if p.hasVoted voter then throw .alreadyVoted
  else
    let tally ← p.raisedTally support votes
    let quorum ← p.quorumAfter support tally
    -- nothing was written so far, and nothing fails from here on
    modify (·.setTally support tally)
    modify fun p => { p with quorumVotes := quorum.getD p.quorumVotes }
    modify fun p => { p with voters := p.voters.insert voter }

def totalVotes? (p : Proposal) : Option Word256 := do
  let cast ← p.forVotes.add? p.againstVotes
  cast.add? p.abstainVotes

def quorumReached (p : Proposal) : Bool := p.quorumVotes ≤ p.forVotes

/-- The outcome once voting has closed: a tie is a defeat, and so is a missed quorum. -/
def isDefeated (p : Proposal) : Bool := p.forVotes ≤ p.againstVotes || !p.quorumReached

end Proposal

end DynamicQuorum
