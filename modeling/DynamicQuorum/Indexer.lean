/-
  DynamicQuorum/Indexer.lean
  ==========================
  **Folding governor events into the history of parameters and the proposals.**

  `handle` applies one event or refuses it.  `handleAll` stops at the first refusal,
  `handleEach` goes on after it, and `replay` also tells its position.
-/
import DynamicQuorum.Event

namespace DynamicQuorum

/-- The governance state folded so far, and how many events were applied. -/
structure Indexer where
  history : ParamsHistory
  proposals : Registry
  handled : UInt64
deriving DecidableEq, Inhabited

/-- The announced proposal with the reported quorum, and without a supply. -/
def Announcement.draft (a : Announcement) (block : BlockNumber) : Proposal :=
  { Proposal.create a.id a.proposer block a.startBlock a.endBlock a.quorumVotes with
    updatePeriodEnd := a.updatePeriodEnd
    voteSnapshotBlock := a.voteSnapshotBlock.getD a.startBlock
    onTimelockV1 := a.onTimelockV1 }

/-- The proposal that an announcement opens at `block`, with the parameters in force there. -/
def Announcement.toProposal (a : Announcement) (block : BlockNumber)
    (inForce : Option QuorumParams) : Except GovernanceError Proposal :=
  match a.totalSupply with
  | none => .ok (a.draft block)
  | some supply =>
    match inForce.filter (·.isDynamic) with
    | none => .ok { a.draft block with totalSupply := supply }
    | some params => (a.draft block).withDynamicQuorum supply params

/-- Count a ballot. -/
def Proposal.countBallot (b : Ballot) : InPlace GovernanceError Proposal Unit := do
  recordVote b.voter b.support b.votes
  -- the first vote activates a pending proposal
  modify fun p => if p.status = .pending then { p with status := .active } else p

namespace Indexer

def empty : Indexer := ⟨.empty, .empty, 0⟩

def withHistory (history : ParamsHistory) : Indexer := ⟨history, .empty, 0⟩

def proposal? (s : Indexer) (id : UInt64) : Option Proposal := s.proposals.get? id

def onHistory {α : Type} (m : InPlace GovernanceError ParamsHistory α) :
    InPlace GovernanceError Indexer α :=
  m.onPart history fun s history => { s with history := history }

def onProposals {α : Type} (m : InPlace GovernanceError Registry α) :
    InPlace GovernanceError Indexer α :=
  m.onPart proposals fun s proposals => { s with proposals := proposals }

def editProposal (id : UInt64) (change : Proposal → Proposal) :
    InPlace GovernanceError Indexer Unit :=
  onProposals (Registry.onProposal id (modify change))

/-- The effect of an event in `block`, the count of events aside. -/
def apply (block : BlockNumber) : Event → InPlace GovernanceError Indexer Unit
  | .proposalCreated a => do
    let p ← a.toProposal block ((← get).history.paramsAt block)
    onProposals (Registry.insert p)
  | .voteCast b => onProposals (Registry.onProposal b.proposalId (Proposal.countBallot b))
  | .minQuorumSet _ new => onHistory (ParamsHistory.change block (.min new))
  | .maxQuorumSet _ new => onHistory (ParamsHistory.change block (.max new))
  | .coefficientSet _ new => onHistory (ParamsHistory.change block (.coefficient new))
  | .objectionPeriodSet id endBlock => editProposal id ({ · with objectionPeriodEnd := endBlock })
  | .proposalCanceled id => editProposal id ({ · with status := .cancelled })
  | .proposalVetoed id => editProposal id ({ · with status := .vetoed })
  | .proposalQueued id eta =>
    editProposal id ({ · with status := .queued, executionEta := some eta })
  | .proposalExecuted id => editProposal id ({ · with status := .executed })

def handle (e : LoggedEvent) : InPlace GovernanceError Indexer Unit := do
  apply e.block e.event
  modify fun s => { s with handled := s.handled + 1 }

def handleAll : List LoggedEvent → InPlace GovernanceError Indexer Unit
  | [] => return
  | e :: rest => do
    handle e
    handleAll rest

/-- Apply events one after another, and go on after those that are refused. -/
def handleEach (s : Indexer) (events : List LoggedEvent) : Indexer :=
  events.foldl (fun s e => (handle e).leaves s) s

end Indexer

/-- The first refusal in a replay, with the place of the event in the log, counted from zero. -/
structure ReplayError where
  position : Nat
  block : BlockNumber
  cause : GovernanceError
deriving DecidableEq, Repr

namespace Indexer

/-- Apply a log of which the first event stands at `position`. -/
def replayFrom (s : Indexer) (position : Nat) :
    List LoggedEvent → Except ReplayError Indexer
  | [] => .ok s
  | e :: rest =>
    match handle e s with
    | .ok _ next => next.replayFrom (position + 1) rest
    | .error cause _ => .error ⟨position, e.block, cause⟩

end Indexer

end DynamicQuorum
