/-
  DynamicQuorum/Journal/Note.lean
  ===============================
  **What happened during a command.**

  A note tells of a single thing: a checkpoint was written, a proposal was created, a vote moved
  a quorum, an event was refused, a quorum was computed, or a replay came to its end.  The
  notes of an event are a function of the indexer and the event, beside the function that
  applies it.

  Each note has a severity, the part of the program that it comes from, and fields.
-/
import DynamicQuorum.Interchange.Params
import DynamicQuorum.Replay

namespace DynamicQuorum

inductive Severity where
  | error
  | warn
  | info
  | debug
  | trace
deriving DecidableEq, Repr

namespace Severity

def rank : Severity → Nat
  | .error => 1
  | .warn => 2
  | .info => 3
  | .debug => 4
  | .trace => 5

def name : Severity → String
  | .error => "ERROR"
  | .warn => "WARN"
  | .info => "INFO"
  | .debug => "DEBUG"
  | .trace => "TRACE"

def all : List Severity := [.error, .warn, .info, .debug, .trace]

end Severity

inductive Note where
  | checkpointWritten (checkpoint : Checkpoint)
  | proposalCreated (id : UInt64) (block : BlockNumber) (quorumVotes : Word256)
      (hasDynamicQuorum : Bool)
  | quorumUpdated (id : UInt64) (againstVotes quorumVotes : Word256)
  | eventRejected (event : LoggedEvent) (cause : GovernanceError)
  | quorumComputed (votes : VoteSnapshot) (quorumVotes : Word256)
  | replayFinished (events proposals : Nat)
deriving DecidableEq, Repr

namespace Note

def severity : Note → Severity
  | .checkpointWritten _ | .proposalCreated .. | .quorumUpdated .. | .quorumComputed .. => .debug
  | .eventRejected .. => .warn
  | .replayFinished .. => .info

def target : Note → String
  | .checkpointWritten _ => "dynquorum_governance::params"
  | .proposalCreated .. | .quorumUpdated .. | .eventRejected .. =>
    "dynquorum_governance::indexer"
  | .quorumComputed .. | .replayFinished .. => "dynquorum::commands"

def message : Note → String
  | .checkpointWritten _ => "Quorum params checkpoint written"
  | .proposalCreated .. => "Proposal created"
  | .quorumUpdated .. => "Dynamic quorum updated"
  | .eventRejected .. => "Rejected governance event"
  | .quorumComputed .. => "Computed dynamic quorum"
  | .replayFinished .. => "Replay finished"

def fields : Note → List (String × Json.Value)
  | .checkpointWritten c =>
    [("block", uint64ToJson c.fromBlock),
     ("min_bps", c.params.minBps.toJson),
     ("max_bps", c.params.maxBps.toJson),
     ("coefficient", c.params.coefficient.toJson)]
  | .proposalCreated id block quorumVotes hasDynamicQuorum =>
    [("id", uint64ToJson id), ("block", uint64ToJson block),
     ("quorum_votes", quorumVotes.toJson), ("dynamic", .bool hasDynamicQuorum)]
  | .quorumUpdated id againstVotes quorumVotes =>
    [("proposal_id", uint64ToJson id), ("against_votes", againstVotes.toJson),
     ("quorum_votes", quorumVotes.toJson)]
  | .eventRejected e cause =>
    [("block", uint64ToJson e.block), ("error", .string cause.message),
     ("event", .string e.event.describe)]
  | .quorumComputed votes quorumVotes =>
    [("against", votes.againstVotes.toJson), ("supply", votes.totalSupply.toJson),
     ("quorum", quorumVotes.toJson)]
  | .replayFinished events proposals =>
    [("events", .number events), ("proposals", .number proposals)]

def fieldNames (note : Note) : List String := "message" :: note.fields.map (·.1)

def toJson (note : Note) : Json.Value := .object
  [("level", .string note.severity.name),
   ("fields", .object (("message", .string note.message) :: note.fields)),
   ("target", .string note.target)]

end Note

/-! ### The notes of a replay -/

namespace Indexer

/-- A proposal is noted once it is complete, even if its id turns out to be taken. -/
def creationNotes (s : Indexer) (block : BlockNumber) (a : Announcement) : List Note :=
  match a.toProposal block (s.history.paramsAt block) with
  | .ok p => [.proposalCreated p.id block p.quorumVotes p.quorumParams.isSome]
  | .error _ => []

/-- A vote is noted when it moved the quorum of its proposal. -/
def voteNotes (s next : Indexer) (id : UInt64) : List Note :=
  match s.proposal? id, next.proposal? id with
  | some old, some new =>
    if new.quorumVotes = old.quorumVotes then []
    else [.quorumUpdated id new.againstVotes new.quorumVotes]
  | _, _ => []

/-- The notes of an event that was applied, the creation of a proposal aside. -/
def acceptedNotes (s next : Indexer) : Event → List Note
  | .voteCast b => s.voteNotes next b.proposalId
  | .minQuorumSet _ _ | .maxQuorumSet _ _ | .coefficientSet _ _ =>
    next.history.latest?.toList.map .checkpointWritten
  | _ => []

def notes (s : Indexer) (e : LoggedEvent) : List Note :=
  let created := match e.event with
    | .proposalCreated a => s.creationNotes e.block a
    | _ => []
  created ++ match handle e s with
    | .ok _ next => s.acceptedNotes next e.event
    | .error cause _ => [.eventRejected e cause]

def logNotes (s : Indexer) : List LoggedEvent → List Note
  | [] => []
  | e :: rest =>
    s.notes e ++ match handle e s with
      | .ok _ next => next.logNotes rest
      | .error _ _ => []

end Indexer

/-- The notes of a replay, the one at its end aside. -/
def replayNotes (events : List LoggedEvent) (seed : Option QuorumParams) : List Note :=
  match Indexer.seeded seed with
  | .error _ => []
  | .ok start =>
    start.history.checkpoints.map .checkpointWritten ++ start.logNotes events

end DynamicQuorum
